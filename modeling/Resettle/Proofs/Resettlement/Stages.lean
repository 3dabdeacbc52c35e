import Resettle.Proofs.Disk.Writing
import Resettle.Resettlement

/-!
# The stages of a migration

A migration is prepared and then completed.  To prepare it is to tell the generation, to find a
migrator for it and to have the target scaffolded; each of the three may stop it.  To complete it
is to let the migrator that was found work on the project.  A migration is the one stage behind the
other, and of the two only the first has to do with the scaffolder.
-/

namespace Resettle

/-! ## Projects with a generation that was told -/

namespace Project

theorem generation_of_told {p : Project} {g : Generation} (h : p.told = some g) (d : Disk) :
    p.generation d = g := by
  rw [generation, h, Option.getD_some]

theorem source_withGeneration (p : Project) (g : Generation) :
    (p.withGeneration g).source = p.source := by
  unfold withGeneration
  split <;> rfl

theorem target_withGeneration (p : Project) (g : Generation) :
    (p.withGeneration g).target = p.target := by
  unfold withGeneration
  split <;> rfl

/-- A known generation that is told first is the one that stays told. -/
theorem told_withGeneration {p : Project} {g : Generation} (hp : p.told = none)
    (hg : g.isKnown = true) : (p.withGeneration g).told = some g := by
  rw [withGeneration, if_pos ⟨hg, hp⟩]

end Project

namespace Dispatcher

/-- Whether some migrator is for a generation. -/
def Supports (x : Dispatcher) (g : Generation) : Prop :=
  ∃ m ∈ x.migrators, m.supports g = true

theorem fst_choose_eq_true_iff (x : Dispatcher) (g : Generation) :
    (x.choose g).1 = true ↔ x.Supports g := by
  unfold choose Supports
  cases hfind : x.migrators.findIdx? fun m => m.supports g with
  | none =>
      rw [List.findIdx?_eq_none_iff] at hfind
      constructor
      · rintro ⟨⟩
      · rintro ⟨m, hm, hsupports⟩
        rw [hfind m hm] at hsupports
        cases hsupports
  | some i =>
      obtain ⟨hi, hsupports, _⟩ := List.findIdx?_eq_some_iff_getElem.1 hfind
      exact ⟨fun _ => ⟨_, List.getElem_mem hi, hsupports⟩, fun _ => rfl⟩

end Dispatcher

namespace Resettlement

def scaffoldedBy (x : Resettlement) (s : Scaffolder) : Resettlement :=
  { x with scaffolder := s }

/-- The stage in which the generation is told, a migrator is found and the target is scaffolded.
It ends with the generation, or with the outcome of a migration that it stopped. -/
def prepare (x : Resettlement) (p : Project) : StateM Disk (Except Outcome Generation) := do
  let g := p.generation (← get)
  if !g.isKnown then
    return .error (stopped g s!"Unsupported CodeIgniter version detected in {p.source.text}")
  else if !(x.dispatcher.choose g).1 then
    return .error (stopped g s!"No migration coordinator for {g.label}")
  else
    match ← (x.scaffolder (p.withGeneration g) x.options).finish with
    | .error e => return .error (stopped g e.message)
    | .ok () => return .ok g

/-- The stage in which the migrator of a generation works on the project. -/
def complete (x : Resettlement) (p : Project) (g : Generation) : StateM Disk Outcome := do
  return outcome g (p.withGeneration g).target
    (← (x.dispatcher.choose g).2.execute (p.withGeneration g))

variable {x : Resettlement} {p : Project} {d : Disk}

/-- Whether a migration gets to its scaffolder: its generation can be told, and there is a migrator
for it. -/
structure Workable (x : Resettlement) (p : Project) (d : Disk) : Prop where
  known : (p.generation d).isKnown = true
  supported : x.dispatcher.Supports (p.generation d)

theorem prepare_of_unknown (h : (p.generation d).isKnown = false) :
    x.prepare p d =
      (.error (stopped (p.generation d)
        s!"Unsupported CodeIgniter version detected in {p.source.text}"), d) := by
  unfold prepare
  simp only [bind, StateT.bind, get, getThe, MonadStateOf.get, StateT.get, pure, h]
  rfl

theorem prepare_of_unsupported (hknown : (p.generation d).isKnown = true)
    (h : ¬ x.dispatcher.Supports (p.generation d)) :
    x.prepare p d =
      (.error (stopped (p.generation d)
        s!"No migration coordinator for {(p.generation d).label}"), d) := by
  rw [← Dispatcher.fst_choose_eq_true_iff, Bool.not_eq_true] at h
  unfold prepare
  simp only [bind, StateT.bind, get, getThe, MonadStateOf.get, StateT.get, pure, hknown, h]
  rfl

/-- A migration that can be worked on is stopped by its scaffolder only. -/
theorem prepare_of_workable (h : x.Workable p d) :
    x.prepare p d =
      match (x.scaffolder (p.withGeneration (p.generation d)) x.options).finish d with
      | (.error e, d₁) => (.error (stopped (p.generation d) e.message), d₁)
      | (.ok (), d₁) => (.ok (p.generation d), d₁) := by
  have hchosen := (x.dispatcher.fst_choose_eq_true_iff _).2 h.supported
  unfold prepare
  simp only [bind, StateT.bind, get, getThe, MonadStateOf.get, StateT.get, pure, h.known, hchosen,
    Bool.not_true, Bool.false_eq_true, if_false]
  cases (x.scaffolder (p.withGeneration (p.generation d)) x.options).finish d with
  | mk result d₁ => cases result <;> rfl

theorem complete_eq (x : Resettlement) (p : Project) (g : Generation) (d : Disk) :
    x.complete p g d =
      (outcome g (p.withGeneration g).target
          ((x.dispatcher.choose g).2.execute (p.withGeneration g) d).1,
        ((x.dispatcher.choose g).2.execute (p.withGeneration g) d).2) :=
  rfl

/-- A migration is completed just if nothing stopped it when it was prepared. -/
theorem run_eq (x : Resettlement) (p : Project) (d : Disk) :
    x.run p d =
      match x.prepare p d with
      | (.error o, d₁) => (o, d₁)
      | (.ok g, d₁) => x.complete p g d₁ := by
  unfold run prepare
  simp only [bind, StateT.bind, get, getThe, MonadStateOf.get, StateT.get, pure]
  cases (p.generation d).isKnown with
  | false => rfl
  | true =>
      cases hchoose : x.dispatcher.choose (p.generation d) with
      | mk chosen dispatcher =>
          cases chosen with
          | false => rfl
          | true =>
              simp only [Bool.not_true, Bool.false_eq_true, if_false, StateT.bind]
              cases (x.scaffolder (p.withGeneration (p.generation d)) x.options).finish d with
              | mk result d₁ =>
                  cases result with
                  | error e => rfl
                  | ok done =>
                      show _ = x.complete p (p.generation d) d₁
                      rw [complete_eq, hchoose]
                      rfl

/-- What a migration is prepared or stopped with is the generation that is told first. -/
theorem fst_prepare (x : Resettlement) (p : Project) (d : Disk) :
    (x.prepare p d).1 = .ok (p.generation d) ∨
      ∃ message, (x.prepare p d).1 = .error (stopped (p.generation d) message) := by
  by_cases h : x.Workable p d
  · rw [prepare_of_workable h]
    split
    · exact .inr ⟨_, rfl⟩
    · exact .inl rfl
  · cases hknown : (p.generation d).isKnown with
    | false =>
        rw [prepare_of_unknown hknown]
        exact .inr ⟨_, rfl⟩
    | true =>
        rw [prepare_of_unsupported hknown fun h' => h ⟨hknown, h'⟩]
        exact .inr ⟨_, rfl⟩

theorem generation_of_prepare_error {o : Outcome} {d₁ : Disk}
    (h : x.prepare p d = (.error o, d₁)) : o.generation = p.generation d := by
  have hfst := x.fst_prepare p d
  rw [h] at hfst
  obtain hok | ⟨message, herror⟩ := hfst
  · cases hok
  · cases herror
    rfl

theorem eq_generation_of_prepare_ok {g : Generation} {d₁ : Disk}
    (h : x.prepare p d = (.ok g, d₁)) : g = p.generation d := by
  have hfst := x.fst_prepare p d
  rw [h] at hfst
  obtain hok | ⟨message, herror⟩ := hfst
  · cases hok
    rfl
  · cases herror

theorem run_of_prepare_error {o : Outcome} {d₁ : Disk} (h : x.prepare p d = (.error o, d₁)) :
    x.run p d = (o, d₁) := by
  rw [run_eq, h]

theorem run_of_prepare_ok {g : Generation} {d₁ : Disk} (h : x.prepare p d = (.ok g, d₁)) :
    x.run p d = x.complete p g d₁ := by
  rw [run_eq, h]

/-- A migration that can be worked on is completed just if the target was scaffolded. -/
theorem run_of_workable (h : x.Workable p d) :
    x.run p d =
      match (x.scaffolder (p.withGeneration (p.generation d)) x.options).finish d with
      | (.error e, d₁) => (stopped (p.generation d) e.message, d₁)
      | (.ok (), d₁) => x.complete p (p.generation d) d₁ := by
  rw [run_eq, prepare_of_workable h]
  cases (x.scaffolder (p.withGeneration (p.generation d)) x.options).finish d with
  | mk result d₁ => cases result <;> rfl

/-- A migration that cannot be worked on stops on the disk as it was, whatever the scaffolder. -/
theorem exists_stop_of_not_workable (h : ¬ x.Workable p d) :
    ∃ message, ∀ s, (x.scaffoldedBy s).run p d = (stopped (p.generation d) message, d) := by
  cases hknown : (p.generation d).isKnown with
  | false =>
      exact ⟨_, fun s => run_of_prepare_error (prepare_of_unknown (x := x.scaffoldedBy s) hknown)⟩
  | true =>
      have hsupports : ¬ x.dispatcher.Supports (p.generation d) := fun h' => h ⟨hknown, h'⟩
      exact ⟨_, fun s =>
        run_of_prepare_error (prepare_of_unsupported (x := x.scaffoldedBy s) hknown hsupports)⟩

theorem run_of_not_workable (h : ¬ x.Workable p d) :
    ∃ message, x.run p d = (stopped (p.generation d) message, d) := by
  obtain ⟨message, hstop⟩ := exists_stop_of_not_workable h
  exact ⟨message, hstop x.scaffolder⟩

/-! ## Outcomes -/

theorem success_outcome (g : Generation) (target : Path) (m : Migration) :
    (outcome g target m).success = m.conversionSucceeded := by
  unfold outcome
  split
  · next reason h =>
      obtain ⟨conversion, hm, hreason⟩ := Option.bind_eq_some_iff.1 h
      cases conversion with
      | completed value => cases hreason
      | failed flag _ => simp [Migration.conversionSucceeded, hm]
  · rfl

theorem report_outcome (g : Generation) (target : Path) (m : Migration) :
    (outcome g target m).report = some m := by
  unfold outcome
  split <;> rfl

theorem generation_outcome (g : Generation) (target : Path) (m : Migration) :
    (outcome g target m).generation = g := by
  unfold outcome
  split <;> rfl

end Resettlement

end Resettle
