import LoxLexer.Proofs.EntryPoints
import LoxLexer.Proofs.Reporting

/-!
# Arguments in any order

The groups of a command line are a script, a source text behind its option, and the switch for more
logging. The option and its text can be written in five ways, as one argument or as two, so that a
text may look like a script. However they are written and in whatever order they come, groups that
go together are all heeded, and no others are (`groups_in_any_order`).

A repeated group is noticed where it stands, as what has been read so far already holds one of its
slot. A script and a source text exclude each other only when all is read.
-/

namespace LoxLexer

namespace Arguments

/-! Groups, how they are written, and what they wish for. -/

/-- A text that is there and does not begin with one of the marks. -/
structure Word (marks : List Char) where
  text : Text
  nonempty : text ≠ []
  unmarked : ∀ c ∈ text.head?, c ∉ marks
  deriving DecidableEq

/-- The ways to give a source text. -/
inductive Spelling where
  | short | attached | shortEquals | long | longEquals
  deriving DecidableEq

def Spelling.write (source : Text) : Spelling → List Text
  | short => ["-e".toList, source]
  | attached => ["-e".toList ++ source]
  | shortEquals => ["-e=".toList ++ source]
  | long => ["--eval".toList, source]
  | longEquals => ["--eval=".toList ++ source]

inductive ArgumentGroup where
  | script (path : Word ['-'])
  | eval (spelling : Spelling) (source : Word ['-', '='])
  | verbose
  deriving DecidableEq

def ArgumentGroup.write : ArgumentGroup → List Text
  | script path => [path.text]
  | eval spelling source => spelling.write source.text
  | verbose => ["--verbose".toList]

/-- The arguments of a list of groups. -/
def argumentsOf (groups : List ArgumentGroup) : List Text :=
  groups.flatMap ArgumentGroup.write

/-- What a group asks for, whichever way it is spelled. -/
inductive Wish where
  | script (path : Text)
  | eval (source : Text)
  | verbose
  deriving DecidableEq

def ArgumentGroup.wish : ArgumentGroup → Wish
  | script path => .script path.text
  | eval _ source => .eval source.text
  | verbose => .verbose

def wishes (groups : List ArgumentGroup) : List Wish := groups.map ArgumentGroup.wish

/-- The slot of a request that a wish is about. -/
inductive Slot where
  | script | eval | verbose
  deriving DecidableEq

def Wish.slot : Wish → Slot
  | script _ => .script
  | eval _ => .eval
  | verbose => .verbose

/-- No slot is asked for twice, and not both a script and a source text are asked for. -/
structure Compatible (ws : List Wish) : Prop where
  once : (ws.map Wish.slot).Nodup
  apart : ¬ (Slot.script ∈ ws.map Wish.slot ∧ Slot.eval ∈ ws.map Wish.slot)

instance (ws : List Wish) : Decidable (Compatible ws) :=
  decidable_of_iff ((ws.map Wish.slot).Nodup ∧
      ¬ (Slot.script ∈ ws.map Wish.slot ∧ Slot.eval ∈ ws.map Wish.slot))
    ⟨fun ⟨once, apart⟩ => ⟨once, apart⟩, fun c => ⟨c.once, c.apart⟩⟩

end Arguments

/-! What a request asks for. -/

namespace Request

open Arguments

def Asks (r : Request) : Wish → Prop
  | .script path => r.script = some path
  | .eval source => r.eval = some source
  | .verbose => r.verbose = true

theorem ext_asks {a b : Request} (same : ∀ w, a.Asks w ↔ b.Asks w) : a = b := by
  obtain ⟨script, eval, verbose⟩ := a
  obtain ⟨script', eval', verbose'⟩ := b
  have scripts : script = script' := Option.ext fun path => same (.script path)
  have evals : eval = eval' := Option.ext fun source => same (.eval source)
  have switches : verbose = verbose' := Bool.eq_iff_iff.mpr (same .verbose)
  rw [scripts, evals, switches]

/-- Something has been asked for in this slot. -/
def has (r : Request) : Slot → Bool
  | .script => r.script.isSome
  | .eval => r.eval.isSome
  | .verbose => r.verbose

theorem has_iff {r : Request} {p : Slot} : r.has p ↔ ∃ w, r.Asks w ∧ w.slot = p := by
  constructor
  · intro h
    cases p with
    | script =>
        obtain ⟨path, known⟩ := Option.isSome_iff_exists.mp h
        exact ⟨.script path, known, rfl⟩
    | eval =>
        obtain ⟨source, known⟩ := Option.isSome_iff_exists.mp h
        exact ⟨.eval source, known, rfl⟩
    | verbose => exact ⟨.verbose, h, rfl⟩
  · rintro ⟨w, asked, rfl⟩
    cases w with
    | script path => exact Option.isSome_of_eq_some asked
    | eval source => exact Option.isSome_of_eq_some asked
    | verbose => exact asked

def blank : Request := ⟨none, none, false⟩

theorem not_asks_blank (w : Wish) : ¬ blank.Asks w := by
  cases w <;> exact nofun

/-- The request with one more wish in it. -/
def grant (r : Request) : Wish → Request
  | .script path => { r with script := some path }
  | .eval source => { r with eval := some source }
  | .verbose => { r with verbose := true }

theorem asks_grant_of_slot_eq (r : Request) :
    ∀ {v w : Wish}, v.slot = w.slot → ((r.grant w).Asks v ↔ v = w)
  | .script _, .script _, _ => by simp [grant, Asks, eq_comm]
  | .eval _, .eval _, _ => by simp [grant, Asks, eq_comm]
  | .verbose, .verbose, _ => by simp [grant, Asks]

theorem asks_grant_of_slot_ne (r : Request) {v w : Wish} (other : v.slot ≠ w.slot) :
    (r.grant w).Asks v ↔ r.Asks v := by
  cases w <;> cases v <;> simp_all [grant, Asks, Wish.slot]

/-- In a free slot a wish is added to those that were there. -/
theorem asks_grant {r : Request} {w : Wish} (free : r.has w.slot = false) (v : Wish) :
    (r.grant w).Asks v ↔ v = w ∨ r.Asks v := by
  by_cases same : v.slot = w.slot
  · have new : ¬ r.Asks v := by
      intro asked
      have taken : r.has w.slot = true := has_iff.mpr ⟨v, asked, same⟩
      rw [free] at taken
      cases taken
    rw [asks_grant_of_slot_eq r same, or_iff_left new]
  · have other : v ≠ w := fun h => same (congrArg Wish.slot h)
    rw [asks_grant_of_slot_ne r same, or_iff_right other]

theorem has_grant_eq_false_iff {r : Request} {w : Wish} {p : Slot} :
    (r.grant w).has p = false ↔ p ≠ w.slot ∧ r.has p = false := by
  cases w <;> cases p <;> simp [grant, has, Wish.slot]

def grantAll (r : Request) (ws : List Wish) : Request := ws.foldl grant r

/-- The wishes are about different parts, in which nothing has been asked for yet. -/
structure Free (r : Request) (ws : List Wish) : Prop where
  once : (ws.map Wish.slot).Nodup
  new : ∀ w ∈ ws, r.has w.slot = false

theorem free_nil (r : Request) : r.Free [] := ⟨List.nodup_nil, List.forall_mem_nil _⟩

theorem free_cons_iff {r : Request} {w : Wish} {ws : List Wish} :
    r.Free (w :: ws) ↔ r.has w.slot = false ∧ (r.grant w).Free ws := by
  constructor
  · rintro ⟨once, new⟩
    obtain ⟨notAgain, once⟩ := List.nodup_cons.mp once
    obtain ⟨first, new⟩ := List.forall_mem_cons.mp new
    refine ⟨first, once, ?_⟩
    intro v member
    apply has_grant_eq_false_iff.mpr
    refine ⟨?_, new v member⟩
    intro same
    exact notAgain (List.mem_map.mpr ⟨v, member, same⟩)
  · rintro ⟨first, once, new⟩
    constructor
    case once =>
      refine List.nodup_cons.mpr ⟨?_, once⟩
      intro again
      obtain ⟨v, member, same⟩ := List.mem_map.mp again
      exact (has_grant_eq_false_iff.mp (new v member)).1 same
    case new =>
      refine List.forall_mem_cons.mpr ⟨first, ?_⟩
      intro v member
      exact (has_grant_eq_false_iff.mp (new v member)).2

theorem asks_grantAll {r : Request} {ws : List Wish} (free : r.Free ws) (v : Wish) :
    (r.grantAll ws).Asks v ↔ v ∈ ws ∨ r.Asks v := by
  induction ws generalizing r with
  | nil => simp [grantAll]
  | cons w ws ih =>
      obtain ⟨first, others⟩ := free_cons_iff.mp free
      calc ((r.grant w).grantAll ws).Asks v
          ↔ v ∈ ws ∨ (r.grant w).Asks v := ih others
        _ ↔ v ∈ ws ∨ v = w ∨ r.Asks v := or_congr_right (asks_grant first v)
        _ ↔ v ∈ w :: ws ∨ r.Asks v := by rw [List.mem_cons, or_left_comm, or_assoc]

theorem asks_quiet (r : Request) (w : Wish) :
    { r with verbose := false }.Asks w ↔ r.Asks w ∧ w ≠ .verbose := by
  cases w <;> simp [Asks]

/-- What these wishes ask for together. -/
def ofWishes (ws : List Wish) : Request := blank.grantAll ws

theorem free_blank_iff {ws : List Wish} : blank.Free ws ↔ (ws.map Wish.slot).Nodup := by
  refine ⟨Free.once, fun once => ⟨once, ?_⟩⟩
  intro w _
  cases w <;> rfl

theorem asks_ofWishes {ws : List Wish} (once : (ws.map Wish.slot).Nodup) (v : Wish) :
    (ofWishes ws).Asks v ↔ v ∈ ws := by
  rw [ofWishes, asks_grantAll (free_blank_iff.mpr once), or_iff_left (not_asks_blank v)]

theorem has_ofWishes {ws : List Wish} (once : (ws.map Wish.slot).Nodup) (p : Slot) :
    (ofWishes ws).has p ↔ p ∈ ws.map Wish.slot := by
  simp only [has_iff, asks_ofWishes once, List.mem_map]

end Request

namespace Arguments

/-! Reading what was written. -/

theorem Word.exists_cons {marks : List Char} (w : Word marks) :
    ∃ c after, w.text = c :: after ∧ c ∉ marks := by
  obtain ⟨c, after, same⟩ := List.exists_cons_of_ne_nil w.nonempty
  refine ⟨c, after, same, w.unmarked c ?_⟩
  rw [same]
  rfl

theorem Word.isOption_eq_false {marks : List Char} (w : Word marks) (dash : '-' ∈ marks) :
    isOption w.text = false := by
  obtain ⟨c, after, same, unmarked⟩ := w.exists_cons
  have noDash : c ≠ '-' := by
    rintro rfl
    exact unmarked dash
  rw [same]
  unfold isOption
  split
  case h_1 h => exact absurd (List.cons.inj h).1 noDash
  case h_2 => rfl

section Read
variable (r : Request) (rest : List Text)

/-- The reading goes on with what has been taken, and ends where there was no place for it. -/
def continued (next : Option Request) : Parsed := next.elim .usageError (readFrom · rest)

theorem readFrom_ofOption {argument : Text} {next : Option Request}
    (notDashes : argument ≠ "--".toList) (taken : take r argument = .ofOption next) :
    readFrom r (argument :: rest) = continued rest next := by
  cases rest with
  | nil =>
      rw [readFrom, if_neg notDashes, taken]
      cases next <;> rfl
  | cons value rest =>
      rw [readFrom, if_neg notDashes, taken]
      cases next <;> rfl

theorem readFrom_needsValue {argument value : Text} (notDashes : argument ≠ "--".toList)
    (waits : take r argument = .needsValue) (isValue : isOption value = false) :
    readFrom r (argument :: value :: rest) = continued rest (takeEval r value) := by
  rw [readFrom, if_neg notDashes, waits]
  simp only [isValue, Bool.false_eq_true, if_false]
  cases takeEval r value <;> rfl

theorem readFrom_script (path : Word ['-']) :
    readFrom r (path.text :: rest) = continued rest (takeScript r path.text) := by
  have isWord : isOption path.text = false := path.isOption_eq_false (List.mem_singleton_self _)
  have notDashes : path.text ≠ "--".toList := by
    intro same
    rw [same] at isWord
    cases isWord
  exact readFrom_ofOption r rest notDashes (take_of_not_isOption isWord r)

/-- Whatever is attached to the letter is the text, unless an equals sign comes first. -/
theorem take_attached {c : Char} (after : Text) (noEquals : c ≠ '=') :
    take r ('-' :: 'e' :: c :: after) = .ofOption (takeEval r (c :: after)) := by
  change takeShort r ('e' :: c :: after) = _
  rw [takeShort]
  case x_1 => exact nofun
  case x_2 =>
    rintro value ⟨⟩
    exact noEquals rfl

/-- Behind the sign the text begins, and it may hold further signs. -/
theorem take_longEquals (source : Text) :
    take r ("--eval=".toList ++ source) = .ofOption (takeEval r source) := rfl

theorem readFrom_eval (spelling : Spelling) (source : Word ['-', '=']) :
    readFrom r (spelling.write source.text ++ rest) =
      continued rest (takeEval r source.text) := by
  have isValue : isOption source.text = false := source.isOption_eq_false (List.mem_cons_self ..)
  cases spelling with
  | short => exact readFrom_needsValue r rest (by decide) rfl isValue
  | attached =>
      obtain ⟨c, after, same, unmarked⟩ := source.exists_cons
      have noEquals : c ≠ '=' := by
        rintro rfl
        exact unmarked (by decide)
      rw [same]
      exact readFrom_ofOption r rest (by simp) (take_attached r after noEquals)
  | shortEquals => exact readFrom_ofOption r rest (by simp) rfl
  | long => exact readFrom_needsValue r rest (by decide) rfl isValue
  | longEquals => exact readFrom_ofOption r rest (by simp) (take_longEquals r source.text)

theorem readFrom_verbose :
    readFrom r ("--verbose".toList :: rest) = continued rest (takeVerbose r) :=
  readFrom_ofOption r rest (by decide) rfl

theorem takeScript_eq {path : Text} (nonempty : path ≠ []) : takeScript r path =
    if r.has .script then none else some (r.grant (.script path)) := by
  rw [takeScript, Request.has]
  cases r.script with
  | none => exact if_pos ⟨rfl, nonempty⟩
  | some known => rfl

theorem takeEval_eq (source : Text) : takeEval r source =
    if r.has .eval then none else some (r.grant (.eval source)) := by
  rw [takeEval, Request.has]
  cases r.eval <;> rfl

/-- In a free slot a group adds its wish, and in any other the reading ends with it. -/
theorem readFrom_write (g : ArgumentGroup) : readFrom r (g.write ++ rest) =
    continued rest (if r.has g.wish.slot then none else some (r.grant g.wish)) := by
  cases g with
  | script path =>
      have free := takeScript_eq r path.nonempty
      rw [ArgumentGroup.write, List.singleton_append, readFrom_script, free]
      rfl
  | eval spelling source =>
      rw [ArgumentGroup.write, readFrom_eval, takeEval_eq]
      rfl
  | verbose => exact readFrom_verbose r rest

end Read

/-- All groups are heeded when each finds its slot free, and else the reading ends on the way. -/
theorem readFrom_argumentsOf (groups : List ArgumentGroup) (r : Request) :
    (r.Free (wishes groups) →
        readFrom r (argumentsOf groups) = settle (r.grantAll (wishes groups))) ∧
      (¬ r.Free (wishes groups) → readFrom r (argumentsOf groups) = .usageError) := by
  -- Over the groups, for every request: what one group leaves is what the others have to fit in.
  induction groups generalizing r with
  | nil => exact ⟨fun _ => rfl, fun taken => absurd (Request.free_nil r) taken⟩
  | cons g groups ih =>
      have one : readFrom r (argumentsOf (g :: groups)) = _ :=
        readFrom_write r (argumentsOf groups) g
      have parts : r.Free (wishes (g :: groups)) ↔ _ := Request.free_cons_iff
      rw [one, parts]
      cases r.has g.wish.slot with
      | true => simp [continued]
      | false =>
          simp only [true_and]
          exact ih (r.grant g.wish)

theorem parse_of_compatible {groups : List ArgumentGroup}
    (compatible : Compatible (wishes groups)) :
    parse (argumentsOf groups) = .request (.ofWishes (wishes groups)) := by
  have free : Request.blank.Free (wishes groups) := Request.free_blank_iff.mpr compatible.once
  have apart : ¬ ((Request.ofWishes (wishes groups)).has .script ∧
      (Request.ofWishes (wishes groups)).has .eval) := by
    rw [Request.has_ofWishes compatible.once, Request.has_ofWishes compatible.once]
    exact compatible.apart
  exact ((readFrom_argumentsOf groups .blank).1 free).trans (if_neg apart)

theorem parse_of_not_compatible {groups : List ArgumentGroup}
    (clash : ¬ Compatible (wishes groups)) : parse (argumentsOf groups) = .usageError := by
  by_cases once : ((wishes groups).map Wish.slot).Nodup
  -- Nothing stops the reading, but the request that it ends with holds a script and a source text.
  · have both : (Request.ofWishes (wishes groups)).has .script ∧
        (Request.ofWishes (wishes groups)).has .eval := by
      rw [Request.has_ofWishes once, Request.has_ofWishes once]
      by_contra apart
      exact clash ⟨once, apart⟩
    have free : Request.blank.Free (wishes groups) := Request.free_blank_iff.mpr once
    exact ((readFrom_argumentsOf groups .blank).1 free).trans (if_pos both)
  · exact (readFrom_argumentsOf groups .blank).2 (mt Request.free_blank_iff.mp once)

/-! Another order, another spelling. -/

theorem Compatible.sublist {vs ws : List Wish} (compatible : Compatible ws)
    (fewer : vs.Sublist ws) : Compatible vs := by
  have parts : (vs.map Wish.slot).Sublist (ws.map Wish.slot) := fewer.map Wish.slot
  constructor
  case once => exact compatible.once.sublist parts
  case apart =>
    rintro ⟨script, eval⟩
    exact compatible.apart ⟨parts.subset script, parts.subset eval⟩

theorem compatible_iff_of_perm {vs ws : List Wish} (same : vs.Perm ws) :
    Compatible vs ↔ Compatible ws := by
  have parts : (vs.map Wish.slot).Perm (ws.map Wish.slot) := same.map Wish.slot
  constructor
  · rintro ⟨once, apart⟩
    exact ⟨parts.nodup_iff.mp once, by simpa only [parts.mem_iff] using apart⟩
  · rintro ⟨once, apart⟩
    exact ⟨parts.nodup_iff.mpr once, by simpa only [parts.mem_iff] using apart⟩

/-- Groups that go together are read into one request in whatever order and spelling. -/
theorem parse_of_perm {groups others : List ArgumentGroup}
    (compatible : Compatible (wishes groups)) (same : (wishes groups).Perm (wishes others)) :
    parse (argumentsOf groups) = parse (argumentsOf others) := by
  have compatible' : Compatible (wishes others) := (compatible_iff_of_perm same).mp compatible
  rw [parse_of_compatible compatible, parse_of_compatible compatible']
  congr 1
  apply Request.ext_asks
  intro w
  rw [Request.asks_ofWishes compatible.once, Request.asks_ofWishes compatible'.once]
  exact same.mem_iff

/-! The switch for more logging. -/

theorem wishes_quiet (groups : List ArgumentGroup) :
    wishes (groups.filter (· ≠ .verbose)) = (wishes groups).filter (· ≠ .verbose) := by
  have same : ∀ g : ArgumentGroup, g = .verbose ↔ g.wish = .verbose := by
    intro g
    cases g <;> simp [ArgumentGroup.wish]
  simp [wishes, List.filter_map, Function.comp_def, same]

/-- Without the switch there is the same request for a script or a source text. -/
theorem parse_quiet {groups : List ArgumentGroup} (compatible : Compatible (wishes groups)) :
    parse (argumentsOf (groups.filter (· ≠ .verbose))) =
      .request { Request.ofWishes (wishes groups) with verbose := false } := by
  have fewer : (wishes (groups.filter (· ≠ .verbose))).Sublist (wishes groups) := by
    rw [wishes_quiet]
    exact List.filter_sublist
  have compatible' := compatible.sublist fewer
  rw [parse_of_compatible compatible']
  congr 1
  apply Request.ext_asks
  intro w
  rw [Request.asks_ofWishes compatible'.once, Request.asks_quiet,
    Request.asks_ofWishes compatible.once, wishes_quiet]
  simp

end Arguments

/-! The run. -/

/-- The last thing that a scan logs. -/
def Log.Event.endsScan : Log.Event → Bool
  | scanComplete _ _ _ => true
  | _ => false

/-- The two endings can be told apart by their logs at most. -/
structure Ending.AlikeButLog (a b : Ending) : Prop where
  status : a.status = b.status
  stdout : a.transcript.stdout = b.transcript.stdout
  stderr : a.transcript.stderr = b.transcript.stderr
  history : a.historyPlace = b.historyPlace

namespace Program

theorem alike_runRequest (s : Surroundings) (r : Request) (verbose : Bool) :
    (runRequest s r).AlikeButLog (runRequest s { r with verbose }) := by
  obtain ⟨script, eval, _⟩ := r
  cases eval with
  | some source => exact ⟨rfl, rfl, rfl, rfl⟩
  | none =>
      cases script with
      | some path => exact ⟨rfl, rfl, rfl, rfl⟩
      | none => exact ⟨rfl, rfl, rfl, rfl⟩

theorem status_runRequest (s : Surroundings) (r : Request) : (runRequest s r).status ≠ 64 := by
  have scanned : ∀ source, statusOf source ≠ 64 := by
    intro source
    unfold statusOf
    split <;> decide
  obtain ⟨script, eval, _⟩ := r
  cases eval with
  | some source => exact scanned source
  | none =>
      cases script with
      | none => exact nofun
      | some path =>
          change (runScript s.read path).1 ≠ 64
          unfold runScript
          split
          case h_1 source _ => exact scanned source
          case h_2 => exact nofun

theorem run_of_request {s : Surroundings} {arguments : List Text} {r : Request}
    (asked : Arguments.parse arguments = .request r) : run s arguments = runRequest s r := by
  rw [run, asked]

theorem run_of_usageError {s : Surroundings} {arguments : List Text}
    (wrong : Arguments.parse arguments = .usageError) :
    run s arguments = ⟨usageStatus, .errors usage, s.historyPlace⟩ := by
  rw [run, wrong]

/-- The text that a request leads to. A session has yet to be given its texts. -/
inductive Leads (s : Surroundings) : Request → Text → Prop
  | eval {script : Option Text} {verbose : Bool} {source : Text} :
      Leads s ⟨script, some source, verbose⟩ source
  | script {path : Text} {verbose : Bool} {source : Text}
      (read : readSource s.read path = .ok source) : Leads s ⟨some path, none, verbose⟩ source

/-- Some filter lets the log show that a scan has come to its end. -/
def Scans (s : Surroundings) (arguments : List Text) : Prop :=
  ∃ filter, ∃ e ∈ (run { s with logFilter := filter } arguments).transcript.log, e.endsScan

/-- This filter lets every event pass. -/
theorem passes_trace (verbose : Bool) (e : Log.Event) :
    (Log.Filter.choose (some "trace".toList) verbose).passes e := by
  have all : Log.Filter.parse? "trace".toList = some [⟨none, none, some .trace, true⟩] := by
    decide +kernel
  rw [Log.Filter.choose, Option.bind_some, all]
  cases e <;> rfl

theorem exists_endsScan (source : Text) :
    ∃ e ∈ (showOutput plainListing source).log, e.endsScan := by
  have ended : ∃ e ∈ scanLog source, e.endsScan := by
    rw [scanLog_eq]
    exact ⟨_, List.mem_append_right _ (List.mem_singleton_self _), rfl⟩
  obtain ⟨e, member, ends⟩ := ended
  exact ⟨e, List.mem_append_left _ (List.mem_append_left _ member), ends⟩

/-- The text that a request leads to is scanned. -/
theorem scans_of_leads {s : Surroundings} {arguments : List Text} {r : Request} {source : Text}
    (asked : Arguments.parse arguments = .request r) (leads : Leads s r source) :
    Scans s arguments := by
  obtain ⟨e, member, ends⟩ := exists_endsScan source
  refine ⟨some "trace".toList, e, ?_, ends⟩
  rw [run_of_request asked]
  cases leads with
  | eval => exact List.mem_filter.mpr ⟨member, passes_trace _ e⟩
  | @script path _ _ read =>
      have logged : e ∈ (runScript s.read path).2.log := by
        rw [runScript, read]
        exact List.mem_append_right _ member
      exact List.mem_filter.mpr ⟨logged, passes_trace _ e⟩

theorem not_scans_of_usageError {arguments : List Text}
    (wrong : Arguments.parse arguments = .usageError) (s : Surroundings) :
    ¬ Scans s arguments := by
  rintro ⟨filter, e, member, _⟩
  rw [run_of_usageError wrong] at member
  cases member

/-! All groups together. -/

open Arguments

/-- The groups are read into a request for just what they wish. What it leads to is scanned, the
switch for more logging changes nothing but the log, and neither the order of the groups nor the
spelling of their options matters to a run. -/
structure Heeded (s : Surroundings) (groups : List ArgumentGroup) (r : Request) : Prop where
  parsed : parse (argumentsOf groups) = .request r
  asks : ∀ w, r.Asks w ↔ w ∈ wishes groups
  scans : ∀ source, Leads s r source → Scans s (argumentsOf groups)
  quiet : (run s (argumentsOf groups)).AlikeButLog
    (run s (argumentsOf (groups.filter (· ≠ .verbose))))
  rearranged : ∀ others, (wishes groups).Perm (wishes others) →
    run s (argumentsOf groups) = run s (argumentsOf others)

/-- The arguments are wrong usage, and nothing comes of them. -/
structure Refused (s : Surroundings) (arguments : List Text) : Prop where
  status : (run s arguments).status = 64
  unlisted : (run s arguments).transcript.stdout = []
  history : (run s arguments).historyPlace = s.historyPlace
  unscanned : ¬ Scans s arguments

variable (s : Surroundings) {groups : List ArgumentGroup}

theorem heeded_of_compatible (compatible : Compatible (wishes groups)) :
    Heeded s groups (.ofWishes (wishes groups)) := by
  have parsed := parse_of_compatible compatible
  constructor
  case parsed => exact parsed
  case asks => exact Request.asks_ofWishes compatible.once
  case scans =>
    intro source leads
    exact scans_of_leads parsed leads
  case quiet =>
    rw [run_of_request parsed, run_of_request (parse_quiet compatible)]
    exact alike_runRequest s _ false
  case rearranged =>
    intro others same
    rw [run, run, parse_of_perm compatible same]

theorem refused_of_not_compatible (clash : ¬ Compatible (wishes groups)) :
    Refused s (argumentsOf groups) := by
  have wrong := parse_of_not_compatible clash
  have ending := run_of_usageError (s := s) wrong
  constructor
  case status => rw [ending]; rfl
  case unlisted => rw [ending]; rfl
  case history => rw [ending]
  case unscanned => exact not_scans_of_usageError wrong s

/-- The groups are heeded exactly when they go together, and exactly when they do not, they are
refused in whatever order and spelling. -/
theorem groups_in_any_order (groups : List ArgumentGroup) :
    (Compatible (wishes groups) ↔ ∃ r, Heeded s groups r) ∧
      (¬ Compatible (wishes groups) ↔
        ∀ others, (wishes groups).Perm (wishes others) → Refused s (argumentsOf others)) := by
  refine ⟨⟨?heeded, ?read⟩, ⟨?refused, ?wrong⟩⟩
  case heeded =>
    intro compatible
    exact ⟨_, heeded_of_compatible s compatible⟩
  case read =>
    rintro ⟨r, heeded⟩
    by_contra clash
    have wrong := parse_of_not_compatible clash
    rw [heeded.parsed] at wrong
    cases wrong
  case refused =>
    intro clash others same
    exact refused_of_not_compatible s (mt (compatible_iff_of_perm same).mpr clash)
  case wrong =>
    intro refused compatible
    have status := (refused groups (List.Perm.refl _)).status
    rw [run_of_request (parse_of_compatible compatible)] at status
    exact status_runRequest s _ status

/-- What could be a script is a source text behind its option; beside a script it is refused. -/
theorem named_twice_in_any_order :
    let source : Word ['-', '='] := ⟨"a.lox".toList, by decide, by rintro c ⟨⟩; decide⟩
    let path : Word ['-'] := ⟨"a.lox".toList, by decide, by rintro c ⟨⟩; decide⟩
    let s : Surroundings :=
      ⟨fun _ => .error .notFound, ByteArray.empty, [], .missing, none, none, false⟩
    let alone : List ArgumentGroup := [.verbose, .eval .short source]
    let both : List ArgumentGroup := [.eval .attached source, .script path]
    Compatible (wishes alone) ∧ (∃ r, Heeded s alone r) ∧
      run s (argumentsOf alone) = run s ["--eval=a.lox".toList, "--verbose".toList] ∧
      ¬ Compatible (wishes both) ∧ Refused s (argumentsOf both) ∧
      Refused s ["a.lox".toList, "-e=a.lox".toList] := by
  intro source path s alone both
  obtain ⟨heeds, _⟩ := groups_in_any_order s alone
  obtain ⟨_, refuses⟩ := groups_in_any_order s both
  have together : Compatible (wishes alone) := by decide
  have clash : ¬ Compatible (wishes both) := by decide
  have swapped : (wishes alone).Perm (wishes [.eval .longEquals source, .verbose]) :=
    List.Perm.swap ..
  have respelled : argumentsOf [.eval .longEquals source, .verbose] =
      ["--eval=a.lox".toList, "--verbose".toList] := rfl
  have swapped' : (wishes both).Perm (wishes [.script path, .eval .shortEquals source]) :=
    List.Perm.swap ..
  have respelled' : argumentsOf [.script path, .eval .shortEquals source] =
      ["a.lox".toList, "-e=a.lox".toList] := rfl
  obtain ⟨r, heeded⟩ := heeds.mp together
  have refused := refuses.mp clash
  refine ⟨together, ⟨r, heeded⟩, ?_, clash, refused both (List.Perm.refl _), ?_⟩
  · rw [← respelled]
    exact heeded.rearranged _ swapped
  · rw [← respelled']
    exact refused _ swapped'

end Program

end LoxLexer
