import Resettle.Proofs.Dictionary
import Resettle.Proofs.Disk.Writing
import Resettle.Session.Store

/-!
# Starting sessions

A session is entered if its generation is known.  A start is refused, or it takes its session out
of the store, prepares a directory beside the source and runs the migration in it.  A refused start
changes nothing.  A session that was taken is not put back, so a start that cannot prepare the
directory loses its session: nobody can start it again.
-/

namespace Resettle

namespace Sessions

def project (m : PendingMigration) (r : StartRequest) (output : Path) : Project :=
  (Project.create m.source output r.projectName).withGeneration m.generation

def runIn (x : Sessions) (m : PendingMigration) (r : StartRequest) (scaffolder : Scaffolder)
    (output : Path) : StateM Disk Outcome :=
  (Resettlement.standard scaffolder r.options x.mode x.settings).run (project m r output)

variable {x rest : Sessions} {id : String} {r : StartRequest} {scaffolder : Scaffolder}
  {d d₁ : Disk} {m : PendingMigration} {e : Error} {output : Path}

/-! ## Entering and taking a session -/

theorem register_eq_ok {x' : Sessions} {fresh : SessionId} {source : Path} {seen : Disk}
    {g : Generation} (h : x.register fresh source seen = .ok (g, x')) :
    g.isKnown = true ∧ x' = { x with pending := x.pending.insert fresh ⟨source, g⟩ } := by
  unfold register at h
  dsimp only at h
  split at h
  · next hknown =>
      cases h
      exact ⟨hknown, rfl⟩
  · cases h

/-- A session is taken if the request is accepted and the session waits. -/
theorem take_eq_ok_iff :
    x.take id r = .ok (m, rest) ↔ r.refusal? = none ∧ ∃ key, SessionId.ofText? id = some key ∧
      x.pending.get? key = some m ∧ rest = { x with pending := x.pending.erase key } := by
  unfold take
  cases r.refusal? with
  | some e => simp
  | none =>
      cases SessionId.ofText? id with
      | none => simp
      | some key =>
          cases hget : x.pending.get? key with
          | none => simp [hget]
          | some m' => simp [hget, eq_comm]

/-! ## The ways a start can go -/

theorem start_of_refused (h : x.take id r = .error e) :
    (x.start id r scaffolder).run d = ((.error e, x), d) := by
  unfold start
  rw [h]
  rfl

theorem finish_migrate_of_unprepared
    (hd : (Action.freshDirectory (migratedDirectory m.source)).finish d = (.error e, d₁)) :
    (x.migrate m r scaffolder).finish d = (.error e, d₁) := by
  unfold migrate
  rw [Action.finish_bind, hd]

theorem finish_migrate_of_prepared
    (hd : (Action.freshDirectory (migratedDirectory m.source)).finish d = (.ok output, d₁)) :
    (x.migrate m r scaffolder).finish d =
      (.ok ((x.runIn m r scaffolder output).run d₁).1,
        ((x.runIn m r scaffolder output).run d₁).2) := by
  unfold migrate
  rw [Action.finish_bind, hd]
  rfl

/-- A start that takes a session leaves the store without it, and is for the rest the migration of
the session. -/
theorem start_of_take (h : x.take id r = .ok (m, rest)) :
    (x.start id r scaffolder).run d =
      ((((x.migrate m r scaffolder).finish d).1, rest), ((x.migrate m r scaffolder).finish d).2) := by
  unfold start
  rw [h]
  rfl

theorem start_of_unprepared (h : x.take id r = .ok (m, rest))
    (hd : (Action.freshDirectory (migratedDirectory m.source)).finish d = (.error e, d₁)) :
    (x.start id r scaffolder).run d = ((.error e, rest), d₁) := by
  rw [start_of_take h, finish_migrate_of_unprepared hd]

theorem start_of_prepared (h : x.take id r = .ok (m, rest))
    (hd : (Action.freshDirectory (migratedDirectory m.source)).finish d = (.ok output, d₁)) :
    (x.start id r scaffolder).run d =
      ((.ok ((x.runIn m r scaffolder output).run d₁).1, rest),
        ((x.runIn m r scaffolder output).run d₁).2) := by
  rw [start_of_take h, finish_migrate_of_prepared hd]

/-- A start that has an outcome took its session, prepared a directory, and ran in it. -/
theorem exists_run_of_start {d' : Disk} {outcome : Outcome}
    (h : (x.start id r scaffolder).run d = ((.ok outcome, rest), d')) :
    ∃ m output d₁, x.take id r = .ok (m, rest) ∧
      (Action.freshDirectory (migratedDirectory m.source)).finish d = (.ok output, d₁) ∧
      (x.runIn m r scaffolder output).run d₁ = (outcome, d') := by
  cases htake : x.take id r with
  | error e =>
      rw [start_of_refused htake] at h
      cases h
  | ok taken =>
      obtain ⟨m, rest'⟩ := taken
      cases hfresh : (Action.freshDirectory (migratedDirectory m.source)).finish d with
      | mk result d₁ =>
          cases result with
          | error e =>
              rw [start_of_unprepared htake hfresh] at h
              cases h
          | ok output =>
              rw [start_of_prepared htake hfresh] at h
              cases h
              exact ⟨m, output, d₁, rfl, hfresh, rfl⟩

/-! ## Sessions that are lost -/

/-- If a start fails, the sessions that wait are those that waited before it. -/
def KeepsSession (x : Sessions) (id : String) (r : StartRequest) (scaffolder : Scaffolder)
    (d : Disk) : Prop :=
  ∀ e rest d', (x.start id r scaffolder).run d = ((.error e, rest), d') → rest.pending = x.pending

theorem pending_ne_of_take (h : x.take id r = .ok (m, rest)) : rest.pending ≠ x.pending := by
  obtain ⟨-, key, -, hget, rfl⟩ := take_eq_ok_iff.1 h
  intro hsame
  have herased : (x.pending.erase key).get? key = some m := by
    rw [show x.pending.erase key = x.pending from hsame, hget]
  exact ((Dictionary.get?_erase_eq_some_iff _).1 herased).1 rfl

theorem keepsSession_iff_prepares :
    x.KeepsSession id r scaffolder d ↔ ∀ m rest, x.take id r = .ok (m, rest) →
      ∃ output d₁,
        (Action.freshDirectory (migratedDirectory m.source)).finish d = (.ok output, d₁) := by
  constructor
  · intro h m rest htake
    cases hfresh : (Action.freshDirectory (migratedDirectory m.source)).finish d with
    | mk result d₁ =>
        cases result with
        | ok output => exact ⟨output, d₁, rfl⟩
        | error e =>
            exact (pending_ne_of_take htake (h e rest d₁ (start_of_unprepared htake hfresh))).elim
  · intro h e rest d' hstart
    cases htake : x.take id r with
    | error e' =>
        rw [start_of_refused htake] at hstart
        cases hstart
        rfl
    | ok taken =>
        obtain ⟨m, rest'⟩ := taken
        obtain ⟨output, d₁, hfresh⟩ := h m rest' htake
        rw [start_of_prepared htake hfresh] at hstart
        cases hstart

theorem start_of_taken (h : x.take id r = .ok (m, rest)) (r' : StartRequest)
    (scaffolder' : Scaffolder) (d' : Disk) :
    (rest.start id r' scaffolder').run d' =
      ((.error (r'.refusal?.getD (.sessionNotFound id)), rest), d') := by
  obtain ⟨-, key, hid, -, rfl⟩ := take_eq_ok_iff.1 h
  refine start_of_refused ?_
  have hgone : (x.pending.erase key).get? key = none := by
    by_contra hsome
    obtain ⟨m', hm'⟩ := Option.ne_none_iff_exists'.1 hsome
    exact ((Dictionary.get?_erase_eq_some_iff _).1 hm').1 rfl
  unfold take
  cases r'.refusal? with
  | some e => rfl
  | none => simp only [hid, hgone, Option.getD_none]

/-- A start that fails keeps the sessions that wait, just if the directory of every session that it
takes can be prepared.  A session that is lost is not found again, whatever the request and whatever
has become of the disk. -/
theorem keepsSession_iff (x : Sessions) (id : String) (r : StartRequest) (scaffolder : Scaffolder)
    (d : Disk) :
    (x.KeepsSession id r scaffolder d ↔ ∀ m rest, x.take id r = .ok (m, rest) →
      ∃ output d₁,
        (Action.freshDirectory (migratedDirectory m.source)).finish d = (.ok output, d₁)) ∧
      ∀ e rest d', (x.start id r scaffolder).run d = ((.error e, rest), d') →
        rest.pending ≠ x.pending → ∀ r' scaffolder' d'',
          (rest.start id r' scaffolder').run d'' =
            ((.error (r'.refusal?.getD (.sessionNotFound id)), rest), d'') := by
  refine ⟨keepsSession_iff_prepares, fun e rest d' hstart hlost r' scaffolder' d'' => ?_⟩
  cases htake : x.take id r with
  | error e' =>
      rw [start_of_refused htake] at hstart
      cases hstart
      exact (hlost rfl).elim
  | ok taken =>
      obtain ⟨m, rest'⟩ := taken
      rw [start_of_take htake] at hstart
      obtain rfl : rest' = rest := congrArg (·.1.2) hstart
      exact start_of_taken htake r' scaffolder' d''

def inDirectory : Disk :=
  .ofEntries [([], "w", .directory), (["w"], "legacy", .directory),
    (["w", "legacy"], "system", .directory), (["w", "legacy", "system"], "core", .directory),
    (["w", "legacy", "system", "core"], "compat", .directory)]

/-- The directory of the source has become a file. -/
def withoutDirectory : Disk :=
  .ofEntries [([], "w", .file (.text "") false)]

/-- A start that finds a file where the directory of its source was fails, and loses the session
that it was to start. -/
theorem not_keepsSession_withoutDirectory :
    ∃ x, (Sessions.empty .sequential {}).register ⟨0⟩ ⟨"w/legacy"⟩ inDirectory = .ok (.ci3, x) ∧
      ¬ x.KeepsSession "00000000-0000-0000-0000-000000000000" ⟨"shop", "10.x", false⟩
        (fun _ _ => pure ()) withoutDirectory := by
  have hdetect : Generation.detect inDirectory ⟨"w/legacy"⟩ = .ci3 := by decide +kernel
  let m : PendingMigration := ⟨⟨"w/legacy"⟩, .ci3⟩
  let x : Sessions := ⟨Dictionary.empty.insert ⟨0⟩ m, .sequential, {}⟩
  refine ⟨x, ?_, fun hkeeps => ?_⟩
  · unfold register
    rw [hdetect]
    rfl
  · have htake : x.take "00000000-0000-0000-0000-000000000000" ⟨"shop", "10.x", false⟩ =
        .ok (m, { x with pending := x.pending.erase ⟨0⟩ }) :=
      take_eq_ok_iff.2 ⟨by decide +kernel, ⟨0⟩, by decide +kernel, rfl, rfl⟩
    obtain ⟨output, d₁, hfresh⟩ := keepsSession_iff_prepares.1 hkeeps m _ htake
    have hfailed : ((Action.freshDirectory (migratedDirectory m.source)).finish withoutDirectory).1 =
        .error (.write ⟨"w/migrated"⟩ .notDirectory) := by
      decide +kernel
    rw [hfresh] at hfailed
    cases hfailed

end Sessions

end Resettle
