import Resettle.Proofs.Session.Traffic

/-!
# Sessions are started once, and as they were registered

Whatever the order of the steps of all clients, and whatever becomes of the disk meanwhile, the
sessions that wait are those that were registered and not taken since, no migration is begun twice,
and a migration works on the source and for the generation that were registered.  The invariant
`Sound` says what each phase of a client and each event that is remembered rests on.
-/

namespace Resettle.Sessions

namespace Phase

/-- The session that a start has taken, whose migration it has not begun. -/
def Holds : Phase → SessionId → Prop
  | taken held _ _ _, key => held = key
  | _, _ => False

/-- What has happened before a client is in a phase. -/
def Backed (log : List Event) : Phase → Prop
  | idle => True
  | looked _ _ => True
  | taken key m _ _ =>
      .registered key m ∈ log ∧ .taken key ∈ log ∧ ∀ p, .begun key p ∉ log
  | begun key _ p =>
      .begun key p ∈ log ∧ ∃ m, .registered key m ∈ log ∧ p.told = some m.generation
  | prepared key _ p g =>
      .begun key p ∈ log ∧ ∃ m, .registered key m ∈ log ∧ g = m.generation

end Phase

namespace Event

def begun? : Event → Option SessionId
  | begun key _ => some key
  | _ => none

theorem begun?_eq_some_iff {e : Event} {key : SessionId} :
    e.begun? = some key ↔ ∃ p, e = .begun key p := by
  cases e <;> simp [begun?]

/-- What else has happened if an event has happened. -/
def Backed (log : List Event) : Event → Prop
  | registered _ m => m.generation.isKnown = true
  | taken key => ∃ m, .registered key m ∈ log
  | begun key p => .taken key ∈ log ∧ ∃ m, .registered key m ∈ log ∧ p.source = m.source ∧
      p.told = some m.generation
  | ended key o => (∃ p, .begun key p ∈ log) ∧
      ∃ m, .registered key m ∈ log ∧ o.generation = m.generation

theorem Backed.mono {log log' : List Event} (hsub : log ⊆ log') {e : Event} (h : e.Backed log) :
    e.Backed log' := by
  cases e with
  | registered key m => exact h
  | taken key => exact h.imp fun _ hm => hsub hm
  | begun key p => exact ⟨hsub h.1, h.2.imp fun _ hm => ⟨hsub hm.1, hm.2⟩⟩
  | ended key o => exact ⟨h.1.imp fun _ hp => hsub hp, h.2.imp fun _ hm => ⟨hsub hm.1, hm.2⟩⟩

end Event

/-- A phase stays backed, unless the migration begins that it is about to begin. -/
theorem Phase.Backed.cons {log : List Event} {phase : Phase} (h : phase.Backed log) {e : Event}
    (hbegun : ∀ key, e.begun? = some key → ¬ phase.Holds key) : phase.Backed (e :: log) := by
  cases phase with
  | idle => trivial
  | looked source seen => trivial
  | taken key m r scaffolder =>
      refine ⟨List.mem_cons_of_mem _ h.1, List.mem_cons_of_mem _ h.2.1, fun p hmem => ?_⟩
      obtain rfl | hmem := List.mem_cons.1 hmem
      · exact hbegun key rfl rfl
      · exact h.2.2 p hmem
  | begun key x p =>
      exact ⟨List.mem_cons_of_mem _ h.1, h.2.imp fun _ hm => ⟨List.mem_cons_of_mem _ hm.1, hm.2⟩⟩
  | prepared key x p g =>
      exact ⟨List.mem_cons_of_mem _ h.1, h.2.imp fun _ hm => ⟨List.mem_cons_of_mem _ hm.1, hm.2⟩⟩

namespace Traffic

variable {κ : Type}

/-- The invariant of the traffic. -/
structure Sound (t : Traffic κ) : Prop where
  /-- The sessions that wait are those that were registered and not taken since. -/
  waiting : ∀ key m, t.sessions.pending.get? key = some m ↔
    .registered key m ∈ t.log ∧ .taken key ∉ t.log
  /-- No number is given out twice. -/
  unique : ∀ key m m', .registered key m ∈ t.log → .registered key m' ∈ t.log → m = m'
  events : ∀ e ∈ t.log, e.Backed t.log
  phases : ∀ c, (t.phase c).Backed t.log
  /-- No two clients hold the same session. -/
  alone : ∀ c c' key, (t.phase c).Holds key → (t.phase c').Holds key → c = c'
  /-- No migration is begun twice. -/
  once : (t.log.filterMap Event.begun?).Nodup

theorem sound_opening (mode : Mode) (settings : Settings) (d : Disk) :
    (opening mode settings d : Traffic κ).Sound where
  waiting := fun key m => by simp [opening, empty]
  unique := fun _ _ _ h => absurd h List.not_mem_nil
  events := fun _ h => absurd h List.not_mem_nil
  phases := fun _ => trivial
  alone := fun _ _ _ h => h.elim
  once := List.nodup_nil

theorem phase_turn_self [DecidableEq κ] (t : Traffic κ) (c : κ) (phase : Phase) :
    (t.turn c phase).phase c = phase :=
  Function.update_self ..

theorem phase_turn_of_ne [DecidableEq κ] {t : Traffic κ} {c c' : κ} (hc : c' ≠ c) (phase : Phase) :
    (t.turn c phase).phase c' = t.phase c' :=
  Function.update_of_ne hc ..

namespace Sound

variable {t : Traffic κ}

/-! ## Facts on what was remembered -/

theorem exists_registered (h : t.Sound) {key : SessionId} (htaken : .taken key ∈ t.log) :
    ∃ m, .registered key m ∈ t.log :=
  h.events _ htaken

theorem taken_of_begun (h : t.Sound) {key : SessionId} {p : Project}
    (hbegun : .begun key p ∈ t.log) : .taken key ∈ t.log :=
  (h.events _ hbegun).1

theorem taken_of_holds (h : t.Sound) {c : κ} {key : SessionId} (hc : (t.phase c).Holds key) :
    .taken key ∈ t.log := by
  have hbacked := h.phases c
  cases hphase : t.phase c with
  | taken held m r scaffolder =>
      rw [hphase] at hc hbacked
      obtain rfl : held = key := hc
      exact hbacked.2.1
  | _ =>
      rw [hphase] at hc
      exact hc.elim

/-! ## What keeps the invariant -/

theorem setDisk (h : t.Sound) (d : Disk) : ({ t with disk := d } : Traffic κ).Sound :=
  ⟨h.waiting, h.unique, h.events, h.phases, h.alone, h.once⟩

/-- A client may go on to a phase that is backed, with a session that nobody holds. -/
theorem turn [DecidableEq κ] (h : t.Sound) (c : κ) (phase : Phase) (hbacked : phase.Backed t.log)
    (hfree : ∀ key, phase.Holds key → ∀ c', ¬ (t.phase c').Holds key) :
    (t.turn c phase).Sound where
  waiting := h.waiting
  unique := h.unique
  events := h.events
  phases := by
    intro c'
    by_cases hc : c' = c
    · subst hc
      rw [phase_turn_self]
      exact hbacked
    · rw [phase_turn_of_ne hc]
      exact h.phases c'
  alone := by
    intro c₁ c₂ key h₁ h₂
    by_cases hc₁ : c₁ = c
    · by_cases hc₂ : c₂ = c
      · rw [hc₁, hc₂]
      · subst hc₁
        rw [phase_turn_self] at h₁
        rw [phase_turn_of_ne hc₂] at h₂
        exact (hfree key h₁ c₂ h₂).elim
    · by_cases hc₂ : c₂ = c
      · subst hc₂
        rw [phase_turn_self] at h₂
        rw [phase_turn_of_ne hc₁] at h₁
        exact (hfree key h₂ c₁ h₁).elim
      · rw [phase_turn_of_ne hc₁] at h₁
        rw [phase_turn_of_ne hc₂] at h₂
        exact h.alone c₁ c₂ key h₁ h₂
  once := h.once

/-- An event may happen that keeps to what is waiting and begins nothing that is held or was begun
before. -/
theorem add (h : t.Sound) {x : Sessions} {e : Event}
    (hwaiting : ∀ key m, x.pending.get? key = some m ↔
      .registered key m ∈ e :: t.log ∧ .taken key ∉ e :: t.log)
    (hnew : ∀ key m, e = .registered key m → ∀ m', .registered key m' ∉ t.log)
    (hbacked : e.Backed (e :: t.log))
    (hfree : ∀ key, e.begun? = some key →
      (∀ c, ¬ (t.phase c).Holds key) ∧ ∀ p, .begun key p ∉ t.log) :
    ({ t with sessions := x, log := e :: t.log } : Traffic κ).Sound where
  waiting := hwaiting
  unique := by
    intro key m m' hm hm'
    obtain rfl | hlog := List.mem_cons.1 hm
    · obtain heq | hlog' := List.mem_cons.1 hm'
      · cases heq
        rfl
      · exact (hnew key m rfl m' hlog').elim
    · obtain rfl | hlog' := List.mem_cons.1 hm'
      · exact (hnew key m' rfl m hlog).elim
      · exact h.unique key m m' hlog hlog'
  events := by
    intro e' he'
    obtain rfl | he' := List.mem_cons.1 he'
    · exact hbacked
    · exact (h.events e' he').mono (List.subset_cons_self ..)
  phases := fun c => (h.phases c).cons fun key hkey => (hfree key hkey).1 c
  alone := h.alone
  once := by
    show ((e :: t.log).filterMap Event.begun?).Nodup
    cases hbegun : e.begun? with
    | none =>
        rw [List.filterMap_cons_none hbegun]
        exact h.once
    | some key =>
        rw [List.filterMap_cons_some hbegun, List.nodup_cons]
        refine ⟨fun hmem => ?_, h.once⟩
        obtain ⟨e', he', hkey⟩ := List.mem_filterMap.1 hmem
        obtain ⟨p, rfl⟩ := Event.begun?_eq_some_iff.1 hkey
        exact (hfree key hbegun).2 p he'

/-- A session may be entered under a number that was not given out. -/
theorem enter (h : t.Sound) {source : Path} {seen : Disk} {fresh : SessionId} {g : Generation}
    {x : Sessions} (hfresh : ∀ m, .registered fresh m ∉ t.log)
    (hregister : t.sessions.register fresh source seen = .ok (g, x)) :
    ({ t with sessions := x, log := .registered fresh ⟨source, g⟩ :: t.log } :
      Traffic κ).Sound := by
  obtain ⟨hknown, rfl⟩ := register_eq_ok hregister
  have huntaken : .taken fresh ∉ t.log := fun htaken =>
    (h.exists_registered htaken).elim hfresh
  refine h.add (fun key m => ?_) (fun key m heq m' => ?_) hknown (fun _ hbegun => nomatch hbegun)
  · rw [Dictionary.get?_insert_eq_some_iff, h.waiting]
    by_cases hkey : key = fresh
    · subst hkey
      simp [hfresh, huntaken]
    · simp [hkey]
  · cases heq
    exact hfresh m'

/-- The session that a start takes is held by nobody, and nobody has begun its migration. -/
theorem untouched (h : t.Sound) {key : SessionId} {m : PendingMigration}
    (hget : t.sessions.pending.get? key = some m) :
    (∀ c, ¬ (t.phase c).Holds key) ∧ ∀ p, .begun key p ∉ t.log := by
  have huntaken : .taken key ∉ t.log := ((h.waiting key m).1 hget).2
  exact ⟨fun c hc => huntaken (h.taken_of_holds hc), fun p hp => huntaken (h.taken_of_begun hp)⟩

theorem release (h : t.Sound) {key : SessionId} {m : PendingMigration}
    (hget : t.sessions.pending.get? key = some m) :
    ({ t with
      sessions := { t.sessions with pending := t.sessions.pending.erase key }
      log := .taken key :: t.log } : Traffic κ).Sound := by
  have hregistered : .registered key m ∈ t.log := ((h.waiting key m).1 hget).1
  refine h.add (fun key' m' => ?_) (fun _ _ heq => nomatch heq)
    ⟨m, List.mem_cons_of_mem _ hregistered⟩ (fun _ hbegun => nomatch hbegun)
  rw [Dictionary.get?_erase_eq_some_iff, h.waiting]
  simp only [List.mem_cons, reduceCtorEq, false_or, Event.taken.injEq, not_or]
  exact ⟨fun hleft => ⟨hleft.2.1, hleft.1, hleft.2.2⟩, fun hright =>
    ⟨hright.2.1, hright.1, hright.2.2⟩⟩

/-- The migration of a session may begin that was taken, is not held any more and was not begun. -/
theorem beginRun (h : t.Sound) {key : SessionId} {m : PendingMigration} {p : Project}
    (hregistered : .registered key m ∈ t.log) (htaken : .taken key ∈ t.log)
    (hsource : p.source = m.source) (htold : p.told = some m.generation)
    (hfree : (∀ c, ¬ (t.phase c).Holds key) ∧ ∀ p, .begun key p ∉ t.log) :
    ({ t with log := .begun key p :: t.log } : Traffic κ).Sound := by
  refine h.add (x := t.sessions) (fun key' m' => ?_) (fun _ _ heq => nomatch heq)
    ⟨List.mem_cons_of_mem _ htaken, m, List.mem_cons_of_mem _ hregistered, hsource, htold⟩ ?_
  · simpa using h.waiting key' m'
  · intro key' hbegun
    cases hbegun
    exact hfree

theorem endRun (h : t.Sound) {key : SessionId} {m : PendingMigration} {p : Project} {o : Outcome}
    (hregistered : .registered key m ∈ t.log) (hbegun : .begun key p ∈ t.log)
    (hgeneration : o.generation = m.generation) :
    ({ t with log := .ended key o :: t.log } : Traffic κ).Sound := by
  refine h.add (x := t.sessions) (fun key' m' => ?_) (fun _ _ heq => nomatch heq)
    ⟨⟨p, List.mem_cons_of_mem _ hbegun⟩, m, List.mem_cons_of_mem _ hregistered, hgeneration⟩
    (fun _ heq => nomatch heq)
  simpa using h.waiting key' m'

/-! ## Steps and runs -/

variable [DecidableEq κ] {c : κ} {t' : Traffic κ}

theorem idle (h : t.Sound) (c : κ) : (t.turn c .idle).Sound :=
  h.turn c .idle trivial fun _ hkey => hkey.elim

theorem not_holds_idle (h : t.Sound) {key : SessionId} (hc : (t.phase c).Holds key) (c' : κ) :
    ¬ ((t.turn c .idle).phase c').Holds key := by
  by_cases heq : c' = c
  · subst heq
    rw [phase_turn_self]
    exact id
  · rw [phase_turn_of_ne heq]
    exact fun hc' => heq (h.alone c' c key hc' hc)

theorem step_take (h : t.Sound) {id : String} {r : StartRequest} {key : SessionId}
    {m : PendingMigration} {rest : Sessions} (scaffolder : Scaffolder)
    (hid : SessionId.ofText? id = some key) (htake : t.sessions.take id r = .ok (m, rest)) :
    ({ t.turn c (.taken key m r scaffolder) with
      sessions := rest
      log := .taken key :: t.log } : Traffic κ).Sound := by
  obtain ⟨-, key', hid', hget, rfl⟩ := take_eq_ok_iff.1 htake
  obtain rfl : key = key' := Option.some.inj (hid.symm.trans hid')
  obtain ⟨hunheld, hunbegun⟩ := h.untouched hget
  have hregistered : .registered key m ∈ t.log := ((h.waiting key m).1 hget).1
  refine (h.release hget).turn c (.taken key m r scaffolder)
    ⟨List.mem_cons_of_mem _ hregistered, List.mem_cons_self, fun p hp => ?_⟩
    (fun key' hkey c' => ?_)
  · obtain heq | hp := List.mem_cons.1 hp
    · cases heq
    · exact hunbegun p hp
  · obtain rfl : key = key' := hkey
    exact hunheld c'

theorem step_begin (h : t.Sound) {key : SessionId} {m : PendingMigration} {r : StartRequest}
    {scaffolder : Scaffolder} (hc : t.phase c = .taken key m r scaffolder) (output : Path)
    (x : Resettlement) (d : Disk) :
    ({ t.turn c (.begun key x (project m r output)) with
      disk := d
      log := .begun key (project m r output) :: t.log } : Traffic κ).Sound := by
  have hholds : (t.phase c).Holds key := by
    rw [hc]
    rfl
  have hbacked := h.phases c
  rw [hc] at hbacked
  obtain ⟨hregistered, htaken, hunbegun⟩ := hbacked
  have hknown : m.generation.isKnown = true := h.events _ hregistered
  have htold : (project m r output).told = some m.generation :=
    Project.told_withGeneration rfl hknown
  -- the client lets go of the session first, so that nobody holds it when its migration begins
  have hbegun := ((h.idle c).setDisk d).beginRun (p := project m r output) hregistered htaken
    (Project.source_withGeneration ..) htold ⟨h.not_holds_idle hholds, hunbegun⟩
  have hturned : ({ (t.turn c .idle).turn c (.begun key x (project m r output)) with
      disk := d
      log := .begun key (project m r output) :: t.log } : Traffic κ).Sound :=
    hbegun.turn c _ ⟨List.mem_cons_self, m, List.mem_cons_of_mem _ hregistered, htold⟩
      fun _ hkey => hkey.elim
  rwa [turn_turn] at hturned

/-- A migration that ends has an outcome for the generation that was registered. -/
theorem step_end (h : t.Sound) {key : SessionId} {m : PendingMigration} {p : Project}
    (hregistered : .registered key m ∈ t.log) (hbegun : .begun key p ∈ t.log) {o : Outcome}
    (hgeneration : o.generation = m.generation) (d : Disk) :
    ({ t.turn c .idle with disk := d, log := .ended key o :: t.log } : Traffic κ).Sound :=
  ((h.idle c).setDisk d).endRun hregistered hbegun hgeneration

/-- A step keeps the invariant. -/
theorem step (h : t.Sound) (hstep : Step t t') : t'.Sound := by
  cases hstep with
  | change d => exact h.setDisk d
  | look source hc => exact h.turn _ _ trivial fun _ hkey => hkey.elim
  | rejectSource hc hrejected => exact h.idle _
  | register hc hfresh hregister => exact (h.idle _).enter hfresh hregister
  | refuse hc hrefused => exact h
  | take scaffolder hc hid htake => exact h.step_take scaffolder hid htake
  | fail hc hfresh => exact (h.idle _).setDisk _
  | begin hc hfresh => exact h.step_begin hc _ _ _
  | stop hc hstop =>
      have hbacked := hc ▸ h.phases _
      obtain ⟨hbegun, m, hregistered, htold⟩ := hbacked
      refine h.step_end hregistered hbegun ?_ _
      rw [Resettlement.generation_of_prepare_error hstop, Project.generation_of_told htold]
  | prepare hc hprepare =>
      have hbacked := hc ▸ h.phases _
      obtain ⟨hbegun, m, hregistered, htold⟩ := hbacked
      have hgeneration := Resettlement.eq_generation_of_prepare_ok hprepare
      rw [Project.generation_of_told htold] at hgeneration
      exact (h.turn _ (.prepared _ _ _ _) ⟨hbegun, m, hregistered, hgeneration⟩
        fun _ hkey => hkey.elim).setDisk _
  | complete hc hcomplete =>
      have hbacked := hc ▸ h.phases _
      obtain ⟨hbegun, m, hregistered, rfl⟩ := hbacked
      refine h.step_end hregistered hbegun ?_ _
      rw [Resettlement.complete_eq] at hcomplete
      cases hcomplete
      exact Resettlement.generation_outcome ..

end Sound

/-- Whatever steps were taken, the invariant holds. -/
theorem Reachable.sound [DecidableEq κ] {t : Traffic κ} (h : t.Reachable) : t.Sound := by
  obtain ⟨mode, settings, d, hsteps⟩ := h
  induction hsteps with
  | refl => exact sound_opening mode settings d
  | tail _ hstep ih => exact ih.step hstep

/-- What the sessions of a traffic can rely on. -/
structure StartedOnce (t : Traffic κ) : Prop where
  /-- The sessions that wait are those that were registered and not taken since. -/
  waiting : ∀ key m, t.sessions.pending.get? key = some m ↔
    .registered key m ∈ t.log ∧ .taken key ∉ t.log
  registered_once : ∀ key m m', .registered key m ∈ t.log → .registered key m' ∈ t.log → m = m'
  begun_once : (t.log.filterMap Event.begun?).Nodup
  /-- A migration works on the source and for the generation that were registered, whatever the
  disk has become. -/
  begun_registered : ∀ key p, .begun key p ∈ t.log → ∃ m, .registered key m ∈ t.log ∧
    p.source = m.source ∧ ∀ d, p.generation d = m.generation
  /-- Only a migration that was begun ends, with an outcome for the generation that was
  registered. -/
  ended_begun : ∀ key o, .ended key o ∈ t.log → (∃ p, .begun key p ∈ t.log) ∧
    ∃ m, .registered key m ∈ t.log ∧ o.generation = m.generation
  /-- A start with a bad request or for a session that does not wait changes nothing. -/
  refused : ∀ id r, (r.refusal? ≠ none ∨
      ∀ key, SessionId.ofText? id = some key → t.sessions.pending.get? key = none) →
    ∃ e, ∀ scaffolder d, (t.sessions.start id r scaffolder).run d = ((.error e, t.sessions), d)

/-- Whatever steps all clients have taken, and whatever has become of the disk meanwhile, sessions
are started once and as they were registered. -/
theorem startedOnce [DecidableEq κ] {t : Traffic κ} (h : t.Reachable) : t.StartedOnce where
  waiting := h.sound.waiting
  registered_once := h.sound.unique
  begun_once := h.sound.once
  begun_registered := fun key p hbegun => by
    obtain ⟨-, m, hregistered, hsource, htold⟩ := h.sound.events _ hbegun
    exact ⟨m, hregistered, hsource, Project.generation_of_told htold⟩
  ended_begun := fun _ _ hended => h.sound.events _ hended
  refused := fun id r hbad => by
    cases htake : t.sessions.take id r with
    | error e => exact ⟨e, fun scaffolder d => start_of_refused htake⟩
    | ok taken =>
        obtain ⟨hrefusal, key, hid, hget, -⟩ := take_eq_ok_iff.1 htake
        obtain hrefused | hgone := hbad
        · exact (hrefused hrefusal).elim
        · rw [hgone key hid] at hget
          cases hget

/-- A directory whose source project is gone. -/
def cleared : Disk :=
  .ofEntries [([], "w", .directory)]

/-- One client registers a source, which is then removed, and another client starts its migration:
it is the migration of what was registered. -/
theorem startedOnce_cleared :
    ∃ t : Traffic Bool, t.Reachable ∧ t.StartedOnce ∧
      Generation.detect t.disk ⟨"w/legacy"⟩ = .unknown ∧
      ∃ p, .begun ⟨0⟩ p ∈ t.log ∧ p.generation t.disk = .ci3 := by
  let m : PendingMigration := ⟨⟨"w/legacy"⟩, .ci3⟩
  let r : StartRequest := ⟨"shop", "10.x", false⟩
  let id := "00000000-0000-0000-0000-000000000000"
  let x : Sessions := ⟨Dictionary.empty.insert ⟨0⟩ m, .sequential, {}⟩
  let t₁ : Traffic Bool := ⟨x, cleared, fun _ => .idle, [.registered ⟨0⟩ m]⟩
  have hdetect : Generation.detect inDirectory ⟨"w/legacy"⟩ = .ci3 := by decide +kernel
  have hregister : (Sessions.empty .sequential {}).register ⟨0⟩ ⟨"w/legacy"⟩ inDirectory =
      .ok (.ci3, x) := by
    unfold register
    rw [hdetect]
    rfl
  have hregistered : Relation.ReflTransGen Step
      (opening .sequential {} inDirectory : Traffic Bool) { t₁ with disk := inDirectory } :=
    reaches_register (c := false) rfl (fun _ => List.not_mem_nil) hregister
  have hcleared : Step { t₁ with disk := inDirectory } t₁ := .change _ cleared
  have houtcome : ((x.start id r fun _ _ => pure ()).run cleared).1.1.toBool = true := by
    decide +kernel
  have hgone : Generation.detect ((x.start id r fun _ _ => pure ()).run cleared).2 ⟨"w/legacy"⟩ =
      .unknown := by decide +kernel
  obtain ⟨t, hstarted, -, -, hdisk, hlog⟩ :=
    reaches_start (t := t₁) (c := true) rfl id r fun _ _ => pure ()
  have hreachable : t.Reachable :=
    ⟨.sequential, {}, inDirectory, (hregistered.tail hcleared).trans hstarted⟩
  have honce := startedOnce hreachable
  cases hstart : ((x.start id r fun _ _ => pure ()).run cleared).1.1 with
  | error e =>
      rw [hstart] at houtcome
      cases houtcome
  | ok o =>
      obtain ⟨key, p, hid, hlog⟩ := hlog o hstart
      obtain rfl : key = ⟨0⟩ := Option.some.inj (hid.symm.trans (by decide +kernel))
      have hbegun : .begun ⟨0⟩ p ∈ t.log := by simp [hlog]
      obtain ⟨m', hm', -, htold⟩ := honce.begun_registered _ p hbegun
      obtain rfl : m' = m := by simpa [hlog, t₁] using hm'
      exact ⟨t, hreachable, honce, hdisk ▸ hgone, p, hbegun, htold _⟩

end Traffic

end Resettle.Sessions
