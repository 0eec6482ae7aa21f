import Mathlib.Data.List.Basic
import LoxLexer.Proofs.Jobs

/-!
# Sources shared among workers

A source waits until a worker takes it. The worker walks over its pieces one by one, while others
walk over theirs, and puts the result into the slot of the source. Whoever takes what, and in
whatever order the workers move: they come to an end, and every slot then holds what a scan of its
source by itself finds (`scanning_together`). Files that arrive in any order are no different.
-/

namespace LoxLexer

/-- What a scan found that has walked over all pieces. -/
def Progress.scanned (p : Progress (Array Diagnostic)) : Scanned :=
  ⟨(p.finish Observer.gather).1, (p.finish Observer.gather).2.toList⟩

/-- The shares of the workers together are all sources. -/
theorem Pool.mem_order {p : Pool} (someone : 0 < p.threads) {count i : Nat} (inside : i < count) :
    i ∈ p.order count := by
  have worker : i % p.threads < min p.threads count :=
    Nat.lt_min.mpr ⟨Nat.mod_lt i someone, Nat.lt_of_le_of_lt (Nat.mod_le i p.threads) inside⟩
  refine List.mem_flatMap.mpr ⟨i % p.threads, List.mem_range.mpr worker, ?_⟩
  exact List.mem_filter.mpr ⟨List.mem_range.mpr inside, decide_eq_true rfl⟩

namespace Workshop

/-- How far a source is. -/
inductive State where
  | waiting
  | underway (worker : Nat) (progress : Progress (Array Diagnostic)) (ahead : List Piece)
  | stored (found : Scanned)

structure Job where
  source : Text
  state : State

/-- One move of a worker: it takes the source, walks over one piece, or stores the result. -/
inductive Act where
  | take (worker : Nat)
  | walk
  | store

structure Move where
  slot : Nat
  act : Act

namespace Job

def act? (job : Job) (act : Act) : Option Job :=
  match act, job.state with
  | .take worker, .waiting =>
      some { job with state := .underway worker (Progress.start #[]) (cut job.source) }
  | .walk, .underway worker progress (piece :: ahead) =>
      some { job with state := .underway worker (progress.step Observer.gather piece) ahead }
  | .store, .underway _ progress [] => some { job with state := .stored progress.scanned }
  | _, _ => none

def isWith (worker : Nat) (job : Job) : Bool :=
  match job.state with
  | .underway other _ _ => other == worker
  | _ => false

def result? (job : Job) : Option Scanned :=
  match job.state with
  | .stored found => some found
  | _ => none

/-- The moves that are left. -/
def work (job : Job) : Nat :=
  match job.state with
  | .waiting => (cut job.source).length + 2
  | .underway _ _ ahead => ahead.length + 1
  | .stored _ => 0

end Job

/-- A worker of the pool takes a source only if it has no other. -/
def admits (threads : Nat) (jobs : List Job) : Act → Bool
  | .take worker => worker < threads && !jobs.any (Job.isWith worker)
  | .walk | .store => true

/-- The jobs after a move, if it can be made. -/
def move? (threads : Nat) (jobs : List Job) (m : Move) : Option (List Job) :=
  if admits threads jobs m.act then
    (jobs[m.slot]?.bind (Job.act? · m.act)).map (jobs.set m.slot)
  else none

def run? (threads : Nat) (jobs : List Job) (moves : List Move) : Option (List Job) :=
  moves.foldlM (move? threads) jobs

def start (sources : List Text) : List Job := sources.map (⟨·, .waiting⟩)

def results (jobs : List Job) : List Scanned := jobs.filterMap Job.result?

def work : List Job → Nat
  | [] => 0
  | job :: jobs => job.work + work jobs

/-! One job. -/

/-- What a move does to the job at its slot. -/
inductive Job.Moves : Job → Job → Prop
  | take (source : Text) (worker : Nat) :
      Moves ⟨source, .waiting⟩ ⟨source, .underway worker (Progress.start #[]) (cut source)⟩
  | walk (source : Text) (worker : Nat) (p : Progress (Array Diagnostic)) (piece : Piece)
      (ahead : List Piece) :
      Moves ⟨source, .underway worker p (piece :: ahead)⟩
        ⟨source, .underway worker (p.step Observer.gather piece) ahead⟩
  | store (source : Text) (worker : Nat) (p : Progress (Array Diagnostic)) :
      Moves ⟨source, .underway worker p []⟩ ⟨source, .stored p.scanned⟩

theorem Job.moves_of_act? {job next : Job} {act : Act} (h : job.act? act = some next) :
    job.Moves next := by
  obtain ⟨source, state⟩ := job
  cases act with
  | take worker =>
      cases state with
      | waiting =>
          cases h
          exact .take source worker
      | _ => cases h
  | walk =>
      cases state with
      | underway worker p ahead =>
          cases ahead with
          | nil => cases h
          | cons piece ahead =>
              cases h
              exact .walk source worker p piece ahead
      | _ => cases h
  | store =>
      cases state with
      | underway worker p ahead =>
          cases ahead with
          | nil =>
              cases h
              exact .store source worker p
          | cons piece ahead => cases h
      | _ => cases h

/-- A worker that goes on by itself finds what there is to find. -/
def Job.Sound (job : Job) : Prop :=
  match job.state with
  | .waiting => True
  | .underway _ p ahead =>
      (ahead.foldl (Progress.step Observer.gather) p).scanned = scan job.source
  | .stored found => found = scan job.source

section Moves
variable {job next : Job}

theorem Job.Moves.source_eq (moves : job.Moves next) : next.source = job.source := by
  cases moves <;> rfl

theorem Job.Moves.sound (moves : job.Moves next) (sound : job.Sound) : next.Sound := by
  cases moves with
  | take source worker => rfl
  | walk source worker p piece ahead => exact sound
  | store source worker p => exact sound

theorem Job.Moves.work_eq (moves : job.Moves next) : job.work = next.work + 1 := by
  cases moves <;> rfl

end Moves

/-! All jobs. -/

section Jobs
variable {threads : Nat} {jobs after : List Job}

theorem work_append (front behind : List Job) :
    work (front ++ behind) = work front + work behind := by
  induction front with
  | nil => exact (Nat.zero_add _).symm
  | cons job front ih => rw [List.cons_append, work, work, ih, Nat.add_assoc]

theorem work_eq_zero_iff : work jobs = 0 ↔ ∀ job ∈ jobs, job.work = 0 := by
  induction jobs with
  | nil => simp [work]
  | cons job jobs ih => rw [work, Nat.add_eq_zero_iff, ih, List.forall_mem_cons]

/-- A move changes the job at one slot and leaves the others alone. -/
theorem move?_cases {m : Move} (moved : move? threads jobs m = some after) :
    ∃ front job next behind, jobs = front ++ job :: behind ∧ after = front ++ next :: behind ∧
      job.Moves next := by
  rw [move?] at moved
  split at moved
  case isTrue =>
    obtain ⟨next, found, rfl⟩ := Option.map_eq_some_iff.mp moved
    obtain ⟨job, atSlot, acted⟩ := Option.bind_eq_some_iff.mp found
    obtain ⟨inside, rfl⟩ := List.getElem?_eq_some_iff.mp atSlot
    refine ⟨jobs.take m.slot, jobs[m.slot], next, jobs.drop (m.slot + 1), ?_, ?_,
      Job.moves_of_act? acted⟩
    · rw [List.getElem_cons_drop, List.take_append_drop]
    · rw [List.set_eq_take_append_cons_drop, if_pos inside]
  case isFalse => cases moved

/-- The jobs as they belong to the sources. -/
structure Sound (sources : List Text) (jobs : List Job) : Prop where
  sources_eq : jobs.map Job.source = sources
  sound : ∀ job ∈ jobs, job.Sound

theorem sound_start (sources : List Text) : Sound sources (start sources) where
  sources_eq := by
    rw [start, List.map_map]
    exact List.map_id sources
  sound job member := by
    obtain ⟨source, _, rfl⟩ := List.mem_map.mp member
    trivial

theorem Sound.move {sources : List Text} {m : Move} (sound : Sound sources jobs)
    (moved : move? threads jobs m = some after) : Sound sources after := by
  obtain ⟨front, job, next, behind, rfl, rfl, moves⟩ := move?_cases moved
  obtain ⟨sources_eq, sound⟩ := sound
  rw [List.forall_mem_append, List.forall_mem_cons] at sound
  obtain ⟨before, here, later⟩ := sound
  constructor
  · rw [← sources_eq, List.map_append, List.map_append, List.map_cons, List.map_cons,
      moves.source_eq]
  · exact List.forall_mem_append.mpr
      ⟨before, List.forall_mem_cons.mpr ⟨moves.sound here, later⟩⟩

theorem work_of_move {m : Move} (moved : move? threads jobs m = some after) :
    work jobs = work after + 1 := by
  obtain ⟨front, job, next, behind, rfl, rfl, moves⟩ := move?_cases moved
  rw [work_append, work_append, work, work, moves.work_eq]
  omega

/-- However the workers move, the jobs still belong to the sources, and every move was work. -/
theorem run_sound {sources : List Text} {moves : List Move} (sound : Sound sources jobs)
    (ran : run? threads jobs moves = some after) :
    Sound sources after ∧ work jobs = moves.length + work after := by
  induction moves generalizing jobs with
  | nil =>
      cases ran
      exact ⟨sound, (Nat.zero_add _).symm⟩
  | cons m moves ih =>
      obtain ⟨between, moved, ran⟩ := Option.bind_eq_some_iff.mp ran
      obtain ⟨soundAfter, left⟩ := ih (sound.move moved) ran
      refine ⟨soundAfter, ?_⟩
      rw [work_of_move moved, left, List.length_cons]
      omega

theorem move?_eq_some {m : Move} {job next : Job} (atSlot : jobs[m.slot]? = some job)
    (admitted : admits threads jobs m.act) (acted : job.act? m.act = some next) :
    move? threads jobs m = some (jobs.set m.slot next) := by
  rw [move?, if_pos admitted, atSlot, Option.bind_some, acted, Option.map_some]

/-- As long as there is work, some worker can move. -/
theorem exists_move (someone : 0 < threads) (unfinished : work jobs ≠ 0) :
    ∃ m after, move? threads jobs m = some after := by
  by_cases busy : ∃ job ∈ jobs, ∃ worker, job.isWith worker
  · obtain ⟨⟨source, state⟩, member, worker, has⟩ := busy
    obtain ⟨slot, atSlot⟩ := List.getElem?_of_mem member
    cases state with
    | underway worker p ahead =>
        cases ahead with
        | nil => exact ⟨⟨slot, .store⟩, _, move?_eq_some atSlot rfl rfl⟩
        | cons piece ahead => exact ⟨⟨slot, .walk⟩, _, move?_eq_some atSlot rfl rfl⟩
    | _ => cases has
  · -- Nobody has a source, so the first worker can take one that waits.
    have left : ∃ job ∈ jobs, job.work ≠ 0 := by
      by_contra none
      exact unfinished (work_eq_zero_iff.mpr fun job inJobs =>
        of_not_not fun some => none ⟨job, inJobs, some⟩)
    obtain ⟨⟨source, state⟩, member, some⟩ := left
    obtain ⟨slot, atSlot⟩ := List.getElem?_of_mem member
    cases state with
    | waiting =>
        have nobody : jobs.any (Job.isWith 0) = false :=
          List.any_eq_false.mpr fun job inJobs has => busy ⟨job, inJobs, 0, has⟩
        have admitted : admits threads jobs (.take 0) := by
          simp [admits, someone, nobody]
        exact ⟨⟨slot, .take 0⟩, _, move?_eq_some atSlot admitted rfl⟩
    | underway worker p ahead => exact absurd ⟨_, member, worker, beq_self_eq_true worker⟩ busy
    | stored found => exact absurd rfl some

theorem results_of_work_eq_zero {sources : List Text} (sound : Sound sources jobs)
    (finished : work jobs = 0) : results jobs = sources.map scan := by
  rw [← sound.sources_eq, List.map_map, results, List.filterMap_eq_map_iff_forall_eq_some]
  rintro ⟨source, state⟩ member
  have right := sound.sound _ member
  have none := work_eq_zero_iff.mp finished _ member
  cases state with
  | stored found => exact congrArg some right
  | _ => cases none

end Jobs

/-- Many sources at once are scanned like one after the other. Whatever the workers of a pool take
and whichever of them moves next, there is a fixed number of moves to make; until all are made some
worker can move, and then the results are those of the pool, which are those of the sources by
themselves, in their order. Files may arrive in any order too, and what is at one path does not
matter for the others. -/
theorem scanning_together (p : Pool) (someone : 0 < p.threads) (sources : List Text) :
    p.scanAll sources = sources.map scan ∧
    (∀ (moves : List Move) (jobs : List Job),
      run? p.threads (start sources) moves = some jobs →
        work (start sources) = moves.length + work jobs ∧
        (work jobs ≠ 0 → ∃ m after, move? p.threads jobs m = some after) ∧
        (work jobs = 0 → results jobs = p.scanAll sources)) ∧
    ∀ (read : Reader) (paths : List Text) (arrival : List Nat),
      (∀ i < paths.length, i ∈ arrival) →
        scanPaths read paths arrival = paths.map (scanPath read) ∧
        ∀ (other : Reader) (i : Nat), (∀ path ∈ paths[i]?, other path = read path) →
          (scanPaths other paths arrival)[i]? = (scanPaths read paths arrival)[i]? := by
  have pooled : p.scanAll sources = sources.map scan :=
    runJobs_eq_map scan sources fun i inside => Pool.mem_order someone inside
  refine ⟨pooled, ?_, ?_⟩
  · intro moves jobs ran
    obtain ⟨sound, made⟩ := run_sound (sound_start sources) ran
    refine ⟨made, exists_move someone, fun finished => ?_⟩
    rw [results_of_work_eq_zero sound finished, pooled]
  · intro read paths arrival all
    have alone : ∀ reader, scanPaths reader paths arrival = paths.map (scanPath reader) :=
      fun reader => runJobs_eq_map (scanPath reader) paths all
    refine ⟨alone read, fun other i same => ?_⟩
    rw [alone, alone, List.getElem?_map, List.getElem?_map]
    cases here : paths[i]? with
    | none => rfl
    | some path =>
        have read_eq : other path = read path := same path here
        simp only [Option.map_some, scanPath, readSource, read_eq]

def crossed : List Text := ["@\"".toList, "?".toList, "1@".toList]

/-- The second source is finished first, by the worker that takes the third one then, while the
other worker is still within the first. -/
def crossing : List Move :=
  [⟨0, .take 0⟩, ⟨1, .take 1⟩, ⟨1, .walk⟩, ⟨0, .walk⟩, ⟨1, .store⟩, ⟨2, .take 1⟩, ⟨2, .walk⟩,
    ⟨0, .walk⟩, ⟨2, .walk⟩, ⟨2, .store⟩, ⟨0, .store⟩]

def crossedPaths : List Text := ["a".toList, "b".toList, "a".toList]

def oneFile : Reader := fun path =>
  if path = "a".toList then .ok (Text.encode "1@".toList) else .error .notFound

def twoFiles : Reader := fun path =>
  if path = "b".toList then .ok (Text.encode "?".toList) else oneFile path

theorem crossed_together :
    (Pool.mk 2).scanAll crossed = crossed.map scan ∧
    (∃ m after, move? 2 (start crossed) m = some after) ∧
    (∃ jobs, run? 2 (start crossed) crossing = some jobs ∧ work jobs = 0 ∧
      results jobs = crossed.map scan) ∧
    scanPaths oneFile crossedPaths [2, 0, 1] = crossedPaths.map (scanPath oneFile) ∧
    (scanPaths twoFiles crossedPaths [2, 0, 1])[2]? =
      (scanPaths oneFile crossedPaths [2, 0, 1])[2]? := by
  obtain ⟨pool, workers, files⟩ := scanning_together ⟨2⟩ (by decide) crossed
  obtain ⟨inOrder, others⟩ := files oneFile crossedPaths [2, 0, 1] (by decide +kernel)
  have ran : (run? 2 (start crossed) crossing).map work = some 0 := by decide +kernel
  obtain ⟨jobs, ran, finished⟩ := Option.map_eq_some_iff.mp ran
  refine ⟨pool, ?_, ⟨jobs, ran, finished, ?_⟩, ?_, ?_⟩
  · exact (workers [] _ rfl).2.1 (by decide +kernel)
  · exact ((workers crossing jobs ran).2.2 finished).trans pool
  · exact inOrder
  · exact others twoFiles 2 (by rintro _ ⟨⟩; rfl)

end Workshop

end LoxLexer
