import LoxLexer.Text.Basic

/-!
# UTF-8 bytes and lines

Bytes are read as text only where they are valid UTF-8. Lines end at a line feed, and a carriage
return right before it belongs to the line end; each line is decoded by itself.
-/

namespace LoxLexer.Text

/-- Byte arrays are compared as the core library compares them. -/
instance : DecidableEq ByteArray := ByteArray.instDecidableEq

def decode? (bytes : ByteArray) : Option Text := (String.fromUTF8? bytes).map String.toList

def encode (t : Text) : ByteArray := (String.ofList t).toUTF8

theorem fromUTF8?_toUTF8 (s : String) : String.fromUTF8? s.toUTF8 = some s := by
  obtain ⟨bytes, valid⟩ := s
  simp [String.fromUTF8?, String.toUTF8, String.fromUTF8, valid]

theorem decode?_encode (t : Text) : decode? (encode t) = some t := by
  simp [decode?, encode, -String.toUTF8_eq_toByteArray, fromUTF8?_toUTF8]

/-- The bytes without a carriage return at their end. -/
def dropCarriageReturn (line : List UInt8) : List UInt8 :=
  if line.getLast? = some 13 then line.dropLast else line

/-- The lines of the bytes, each as text if it is UTF-8. A last line may lack its line feed. -/
def lines (bytes : ByteArray) : List (Option Text) :=
  let parts := bytes.data.toList.splitOn 10
  let ended := parts.dropLast.map dropCarriageReturn
  let rest := (parts.getLast?.toList).filter (· ≠ [])
  (ended ++ rest).map fun line => decode? ⟨line.toArray⟩

/-- Parts that each have the same mark behind them are found again, with nothing behind the last. -/
theorem splitOn_ended {α : Type} [BEq α] [LawfulBEq α] {mark : α} {parts : List (List α)}
    (inside : ∀ part ∈ parts, mark ∉ part) :
    (parts.flatMap fun part => part ++ [mark]).splitOn mark = parts ++ [[]] := by
  induction parts with
  | nil => exact List.splitOn_nil mark
  | cons part parts ih =>
      obtain ⟨first, others⟩ := List.forall_mem_cons.mp inside
      rw [List.flatMap_cons, List.append_assoc, List.singleton_append,
        List.splitOn_append_cons_self_of_not_mem first, ih others, List.cons_append]

end LoxLexer.Text
