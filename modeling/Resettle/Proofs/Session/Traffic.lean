import Mathlib.Logic.Function.Basic
import Mathlib.Logic.Relation
import Resettle.Proofs.Resettlement.Stages
import Resettle.Proofs.Session.Starting

/-!
# Traffic of sessions

Any number of clients register and start sessions of one store, while the disk may change in any
way between any two steps.  A call is cut where it uses something that others may use meanwhile:
a registration looks at the disk and then enters its session; a start takes its session, prepares a
directory, prepares its migration and completes it.  The store is used in one step at a time.
-/

namespace Resettle.Sessions

/-- What a call has done so far. -/
inductive Phase where
  | idle
  /-- A registration has looked at the disk. -/
  | looked (source : Path) (seen : Disk)
  /-- A start has taken its session. -/
  | taken (key : SessionId) (m : PendingMigration) (r : StartRequest) (scaffolder : Scaffolder)
  /-- A start has begun its migration. -/
  | begun (key : SessionId) (x : Resettlement) (p : Project)
  /-- The migration of a start is prepared. -/
  | prepared (key : SessionId) (x : Resettlement) (p : Project) (g : Generation)

/-- What is remembered of the steps that were taken. -/
inductive Event where
  /-- A session was entered under a number. -/
  | registered (key : SessionId) (m : PendingMigration)
  | taken (key : SessionId)
  /-- The migration of a session was begun. -/
  | begun (key : SessionId) (p : Project)
  | ended (key : SessionId) (o : Outcome)

/-- The store and the disk, what each client is about, and what has happened, last things first. -/
structure Traffic (κ : Type) where
  sessions : Sessions
  disk : Disk
  phase : κ → Phase
  log : List Event

namespace Traffic

variable {κ : Type} [DecidableEq κ]

def turn (t : Traffic κ) (c : κ) (phase : Phase) : Traffic κ :=
  { t with phase := Function.update t.phase c phase }

/-- One step of the traffic. -/
inductive Step : Traffic κ → Traffic κ → Prop where
  /-- Whatever happens to the disk. -/
  | change (t : Traffic κ) (d : Disk) : Step t { t with disk := d }
  | look {t : Traffic κ} {c : κ} (source : Path) (hc : t.phase c = .idle) :
      Step t (t.turn c (.looked source t.disk))
  | rejectSource {t : Traffic κ} {c : κ} {source : Path} {seen : Disk} {fresh : SessionId} {e : Error}
      (hc : t.phase c = .looked source seen)
      (h : t.sessions.register fresh source seen = .error e) :
      Step t (t.turn c .idle)
  /-- A session is entered under a number that was not given out before. -/
  | register {t : Traffic κ} {c : κ} {source : Path} {seen : Disk} {fresh : SessionId}
      {g : Generation} {x : Sessions}
      (hc : t.phase c = .looked source seen) (hfresh : ∀ m, .registered fresh m ∉ t.log)
      (h : t.sessions.register fresh source seen = .ok (g, x)) :
      Step t { t.turn c .idle with
        sessions := x
        log := .registered fresh ⟨source, g⟩ :: t.log }
  | refuse {t : Traffic κ} {c : κ} {id : String} {r : StartRequest} {e : Error}
      (hc : t.phase c = .idle) (h : t.sessions.take id r = .error e) : Step t t
  | take {t : Traffic κ} {c : κ} {id : String} {r : StartRequest} {key : SessionId}
      {m : PendingMigration} {rest : Sessions} (scaffolder : Scaffolder)
      (hc : t.phase c = .idle) (hid : SessionId.ofText? id = some key)
      (h : t.sessions.take id r = .ok (m, rest)) :
      Step t { t.turn c (.taken key m r scaffolder) with
        sessions := rest
        log := .taken key :: t.log }
  | fail {t : Traffic κ} {c : κ} {key : SessionId} {m : PendingMigration} {r : StartRequest}
      {scaffolder : Scaffolder} {e : Error} {d : Disk}
      (hc : t.phase c = .taken key m r scaffolder)
      (h : (Action.freshDirectory (migratedDirectory m.source)).finish t.disk = (.error e, d)) :
      Step t { t.turn c .idle with disk := d }
  | begin {t : Traffic κ} {c : κ} {key : SessionId} {m : PendingMigration} {r : StartRequest}
      {scaffolder : Scaffolder} {output : Path} {d : Disk}
      (hc : t.phase c = .taken key m r scaffolder)
      (h : (Action.freshDirectory (migratedDirectory m.source)).finish t.disk = (.ok output, d)) :
      Step t { t.turn c (.begun key
          (.standard scaffolder r.options t.sessions.mode t.sessions.settings)
          (project m r output)) with
        disk := d
        log := .begun key (project m r output) :: t.log }
  | stop {t : Traffic κ} {c : κ} {key : SessionId} {x : Resettlement} {p : Project} {o : Outcome}
      {d : Disk} (hc : t.phase c = .begun key x p) (h : x.prepare p t.disk = (.error o, d)) :
      Step t { t.turn c .idle with disk := d, log := .ended key o :: t.log }
  | prepare {t : Traffic κ} {c : κ} {key : SessionId} {x : Resettlement} {p : Project}
      {g : Generation} {d : Disk} (hc : t.phase c = .begun key x p)
      (h : x.prepare p t.disk = (.ok g, d)) :
      Step t { t.turn c (.prepared key x p g) with disk := d }
  | complete {t : Traffic κ} {c : κ} {key : SessionId} {x : Resettlement} {p : Project}
      {g : Generation} {o : Outcome} {d : Disk} (hc : t.phase c = .prepared key x p g)
      (h : x.complete p g t.disk = (o, d)) :
      Step t { t.turn c .idle with disk := d, log := .ended key o :: t.log }

/-- The traffic before any call. -/
def opening (mode : Mode) (settings : Settings) (d : Disk) : Traffic κ :=
  ⟨.empty mode settings, d, fun _ => .idle, []⟩

/-- The traffic that steps can lead to from a store without sessions. -/
def Reachable (t : Traffic κ) : Prop :=
  ∃ mode settings d, Relation.ReflTransGen Step (opening mode settings d) t

/-! ## Calls that nothing interrupts -/

variable {t : Traffic κ} {c : κ}

theorem turn_turn (phase phase' : Phase) : (t.turn c phase).turn c phase' = t.turn c phase' := by
  unfold turn
  rw [Function.update_idem]

theorem turn_idle (hc : t.phase c = .idle) : t.turn c .idle = t := by
  unfold turn
  rw [← hc, Function.update_eq_self]

/-- A registration that nothing interrupts enters what the store enters. -/
theorem reaches_register {source : Path} {fresh : SessionId} {g : Generation} {x : Sessions}
    (hc : t.phase c = .idle) (hfresh : ∀ m, .registered fresh m ∉ t.log)
    (h : t.sessions.register fresh source t.disk = .ok (g, x)) :
    Relation.ReflTransGen Step t
      { t with sessions := x, log := .registered fresh ⟨source, g⟩ :: t.log } := by
  have hlook : Step t (t.turn c (.looked source t.disk)) := .look source hc
  have hphase : (t.turn c (.looked source t.disk)).phase c = .looked source t.disk :=
    Function.update_self ..
  have hregister := Step.register hphase hfresh h
  rw [turn_turn, turn_idle hc] at hregister
  exact .tail (.single hlook) hregister

/-- A migration that was begun and that nothing interrupts ends as it runs. -/
theorem reaches_of_begun {key : SessionId} {x : Resettlement} {p : Project}
    (hc : t.phase c = .begun key x p) :
    ∃ t', Relation.ReflTransGen Step t t' ∧ t'.phase = Function.update t.phase c .idle ∧
      t'.sessions = t.sessions ∧ t'.disk = (x.run p t.disk).2 ∧
      t'.log = .ended key (x.run p t.disk).1 :: t.log := by
  cases hprepare : x.prepare p t.disk with
  | mk result d₁ =>
      cases result with
      | error o =>
          rw [Resettlement.run_of_prepare_error hprepare]
          exact ⟨_, .single (.stop hc hprepare), rfl, rfl, rfl, rfl⟩
      | ok g =>
          rw [Resettlement.run_of_prepare_ok hprepare]
          refine ⟨_, .tail (.single (.prepare hc hprepare)) (.complete (Function.update_self ..) rfl),
            ?_, rfl, rfl, rfl⟩
          exact Function.update_idem ..

/-- A start that took its session and that nothing interrupts leaves the disk that the migration of
the session leaves, and a migration with an outcome was begun and has ended. -/
theorem reaches_of_taken {key : SessionId} {m : PendingMigration} {r : StartRequest}
    {scaffolder : Scaffolder} (hc : t.phase c = .taken key m r scaffolder) :
    ∃ t', Relation.ReflTransGen Step t t' ∧ t'.phase = Function.update t.phase c .idle ∧
      t'.sessions = t.sessions ∧
      t'.disk = ((t.sessions.migrate m r scaffolder).finish t.disk).2 ∧
      ∀ o, ((t.sessions.migrate m r scaffolder).finish t.disk).1 = .ok o →
        ∃ p, t'.log = .ended key o :: .begun key p :: t.log := by
  cases hfresh : (Action.freshDirectory (migratedDirectory m.source)).finish t.disk with
  | mk result d₁ =>
      cases result with
      | error e =>
          rw [finish_migrate_of_unprepared hfresh]
          exact ⟨_, .single (.fail hc hfresh), rfl, rfl, rfl, fun _ h => nomatch h⟩
      | ok output =>
          let t₁ : Traffic κ :=
            { t.turn c (.begun key
                (.standard scaffolder r.options t.sessions.mode t.sessions.settings)
                (project m r output)) with
              disk := d₁
              log := .begun key (project m r output) :: t.log }
          have hstep : Step t t₁ := .begin hc hfresh
          obtain ⟨t', hsteps, hphase, hsessions, hdisk, hlog⟩ :=
            reaches_of_begun (t := t₁) (c := c) (Function.update_self ..)
          rw [finish_migrate_of_prepared hfresh]
          refine ⟨t', .head hstep hsteps, hphase.trans (Function.update_idem ..), hsessions, hdisk,
            fun o h => ⟨project m r output, ?_⟩⟩
          cases h
          exact hlog

/-- A start that nothing interrupts leaves the store and the disk that starting its session
leaves.  If it has an outcome its session was taken, and its migration was begun and has ended with
the outcome. -/
theorem reaches_start (hc : t.phase c = .idle) (id : String) (r : StartRequest)
    (scaffolder : Scaffolder) :
    ∃ t', Relation.ReflTransGen Step t t' ∧ t'.phase = t.phase ∧
      t'.sessions = ((t.sessions.start id r scaffolder).run t.disk).1.2 ∧
      t'.disk = ((t.sessions.start id r scaffolder).run t.disk).2 ∧
      ∀ o, ((t.sessions.start id r scaffolder).run t.disk).1.1 = .ok o →
        ∃ key p, SessionId.ofText? id = some key ∧
          t'.log = .ended key o :: .begun key p :: .taken key :: t.log := by
  cases htake : t.sessions.take id r with
  | error e =>
      rw [start_of_refused htake]
      exact ⟨t, .single (.refuse hc htake), rfl, rfl, rfl, fun _ h => nomatch h⟩
  | ok taken =>
      obtain ⟨m, rest⟩ := taken
      obtain ⟨-, key, hid, -, rfl⟩ := take_eq_ok_iff.1 htake
      let t₁ : Traffic κ :=
        { t.turn c (.taken key m r scaffolder) with
          sessions := { t.sessions with pending := t.sessions.pending.erase key }
          log := .taken key :: t.log }
      have hstep : Step t t₁ := .take scaffolder hc hid htake
      obtain ⟨t', hsteps, hphase, hsessions, hdisk, hlog⟩ :=
        reaches_of_taken (t := t₁) (c := c) (Function.update_self ..)
      have hidle : Function.update t₁.phase c .idle = t.phase := by
        rw [show t₁.phase = Function.update t.phase c _ from rfl, Function.update_idem, ← hc,
          Function.update_eq_self]
      rw [start_of_take htake]
      refine ⟨t', .head hstep hsteps, hphase.trans hidle, hsessions, hdisk, fun o h => ?_⟩
      obtain ⟨p, hlog⟩ := hlog o h
      exact ⟨key, p, hid, hlog⟩

end Traffic

end Resettle.Sessions
