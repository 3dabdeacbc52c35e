import Resettle.Proofs.Resettlement.Stages

/-!
# What outcomes say

An outcome tells what a migration did.  The scaffolder is asked at most once, and not at all for a
generation that is unknown or has no migrator.  There is a report just if the target was
scaffolded.  Its sections are those of the analyzer and the converter that the registry has for the
generation; the converter works on the disk that the scaffolder left, whatever the analysis came to.
-/

namespace Resettle

/-! ## Asking a scaffolder -/

namespace Scaffolder

variable {α : Type}

/-- What is made of a scaffolder is the same for all of them, so it is not asked. -/
def NotAsked (f : Scaffolder → α) : Prop :=
  ∀ s s', f s = f s'

/-- What is made of a scaffolder depends on a single answer: that for a project, with options, on a
disk.  To ask again, for anything else or on the disk that the first answer left, would make it
depend on a second one. -/
def AskedOnce (f : Scaffolder → α) (p : Project) (o : ScaffoldOptions) (d : Disk) : Prop :=
  ∃ rest : Except Error Unit × Disk → α, ∀ s, f s = rest ((s p o).finish d)

end Scaffolder

/-! ## Sections of a report -/

/-- The sections of a migration are those of the analyzer and the converter that a registry has for
a generation, each of which found the disk `d`; the converter left `d'`.  Without an analyzer or a
converter the section is a failure. -/
structure Registry.Accounts (r : Registry) (g : Generation) (p : Project) (d d' : Disk)
    (m : Migration) : Prop where
  analysis : m.analysis = some
    (match r.analyzer? g with
      | some a => Section.ofResult (a.analyze p d)
      | none => .failure s!"No analyzer found for {g.label}")
  conversion : (m.conversion, d') =
    match r.converter? g with
      | some c => (some (Section.ofResult ((c.convert p).finish d).1), ((c.convert p).finish d).2)
      | none => (some (.failure s!"No converter found for {g.label}"), d)

theorem Migrator.execute_accounts (g : Generation) (r : Registry) (p : Project) (d : Disk) :
    r.Accounts g p d ((ofGeneration g r).execute p d).2 ((ofGeneration g r).execute p d).1 := by
  constructor
  · show some (analysis g (r.analyzer? g) p d) = _
    unfold analysis
    cases r.analyzer? g <;> rfl
  · show (some (conversion g (r.converter? g) p d).1, (conversion g (r.converter? g) p d).2) = _
    cases r.converter? g <;> rfl

/-- The dispatcher of a registry, after any choice. -/
def Dispatcher.chosenBefore (r : Registry) (current : Option Nat) : Dispatcher :=
  { ofRegistry r with current := current }

theorem Dispatcher.supports_chosenBefore (r : Registry) (current : Option Nat) {g : Generation}
    (h : g.isKnown = true) : (chosenBefore r current).Supports g :=
  ⟨Migrator.ofGeneration g r, List.mem_map_of_mem ((Generation.mem_supported_iff g).2 h),
    beq_self_eq_true g⟩

/-- The migrator of a generation is chosen for it, whichever was chosen before. -/
theorem Dispatcher.chosen?_choose_chosenBefore (r : Registry) (current : Option Nat)
    {g : Generation} (h : g.isKnown = true) :
    ((chosenBefore r current).choose g).2.chosen? = some (Migrator.ofGeneration g r) := by
  cases g with
  | unknown => cases h
  | ci2 => rfl
  | ci3 => rfl
  | ci4 => rfl

namespace Resettlement

inductive Stops (x : Resettlement) (p : Project) (d : Disk) : Prop where
  | unknown (h : (p.generation d).isKnown = false)
  | unsupported (h : ¬ x.dispatcher.Supports (p.generation d))
  | unscaffolded (e : Error)
      (h : ((x.scaffolder (p.withGeneration (p.generation d)) x.options).finish d).1 = .error e)

variable (x : Resettlement) (p : Project) (d : Disk)

theorem workable_scaffoldedBy_iff (s : Scaffolder) :
    (x.scaffoldedBy s).Workable p d ↔ x.Workable p d :=
  ⟨fun h => ⟨h.known, h.supported⟩, fun h => ⟨h.known, h.supported⟩⟩

theorem askedOnce_of_workable {x : Resettlement} {p : Project} {d : Disk} (h : x.Workable p d) :
    Scaffolder.AskedOnce (fun s => (x.scaffoldedBy s).run p d)
      (p.withGeneration (p.generation d)) x.options d := by
  refine ⟨fun answer =>
    match answer with
    | (.error e, d₁) => (stopped (p.generation d) e.message, d₁)
    | (.ok (), d₁) => x.complete p (p.generation d) d₁, fun s => ?_⟩
  exact run_of_workable ((workable_scaffoldedBy_iff x p d s).2 h)

theorem notAsked_of_not_workable {x : Resettlement} {p : Project} {d : Disk}
    (h : ¬ x.Workable p d) : Scaffolder.NotAsked fun s => (x.scaffoldedBy s).run p d := by
  obtain ⟨message, hstop⟩ := exists_stop_of_not_workable h
  exact fun s s' => (hstop s).trans (hstop s').symm

/-- A migration stops, or it is completed on the disk that its scaffolder left. -/
theorem stops_or_completes :
    (x.Stops p d ∧ ∃ message d₁, x.run p d = (stopped (p.generation d) message, d₁)) ∨
      ¬ x.Stops p d ∧ ∃ d₁,
        (x.scaffolder (p.withGeneration (p.generation d)) x.options).finish d = (.ok (), d₁) ∧
          x.run p d = x.complete p (p.generation d) d₁ := by
  by_cases h : x.Workable p d
  · have hrun := run_of_workable h
    cases hscaffold : (x.scaffolder (p.withGeneration (p.generation d)) x.options).finish d with
    | mk result d₁ =>
        rw [hscaffold] at hrun
        cases result with
        | error e => exact .inl ⟨.unscaffolded e (congrArg Prod.fst hscaffold), e.message, d₁, hrun⟩
        | ok done =>
            refine .inr ⟨fun hstops => ?_, d₁, rfl, hrun⟩
            cases hstops with
            | unknown hunknown => rw [h.known] at hunknown; cases hunknown
            | unsupported hunsupported => exact hunsupported h.supported
            | unscaffolded e he => rw [hscaffold] at he; cases he
  · refine .inl ⟨?_, ?_⟩
    · by_cases hknown : (p.generation d).isKnown = true
      · exact .unsupported fun hsupports => h ⟨hknown, hsupports⟩
      · exact .unknown (Bool.not_eq_true _ ▸ hknown)
    · obtain ⟨message, hrun⟩ := run_of_not_workable h
      exact ⟨message, d, hrun⟩

theorem generation_run : (x.run p d).1.generation = p.generation d := by
  rcases stops_or_completes x p d with ⟨-, message, d₁, hrun⟩ | ⟨-, d₁, -, hrun⟩
  · rw [hrun]
    rfl
  · rw [hrun, complete_eq, generation_outcome]

theorem report_run_eq_none_iff : (x.run p d).1.report = none ↔ x.Stops p d := by
  rcases stops_or_completes x p d with ⟨hstops, message, d₁, hrun⟩ | ⟨hgoes, d₁, -, hrun⟩
  · rw [hrun]
    exact ⟨fun _ => hstops, fun _ => rfl⟩
  · rw [hrun, complete_eq, report_outcome]
    exact ⟨fun h => (nomatch h), fun hstops => (hgoes hstops).elim⟩

theorem success_run_iff : (x.run p d).1.success = true ↔
    ∃ m, (x.run p d).1.report = some m ∧ m.conversion = some (.completed true) := by
  rcases stops_or_completes x p d with ⟨-, message, d₁, hrun⟩ | ⟨-, d₁, -, hrun⟩
  · rw [hrun]
    constructor
    · rintro ⟨⟩
    · rintro ⟨m, ⟨⟩, -⟩
  · rw [hrun, complete_eq, success_outcome, report_outcome]
    simp [Migration.conversionSucceeded]

variable {x p d}

/-- The migrators of a registry complete a migration by the analyzer and the converter for its
generation. -/
theorem complete_of_registry {r : Registry} {current : Option Nat} {g : Generation}
    (hx : x.dispatcher = .chosenBefore r current) (hg : g.isKnown = true) (p : Project) (d : Disk) :
    x.complete p g d =
      (outcome g (p.withGeneration g).target
          ((Migrator.ofGeneration g r).execute (p.withGeneration g) d).1,
        ((Migrator.ofGeneration g r).execute (p.withGeneration g) d).2) := by
  rw [complete_eq]
  unfold Dispatcher.execute
  rw [hx, Dispatcher.chosen?_choose_chosenBefore r current hg]

theorem known_of_not_stops (h : ¬ x.Stops p d) : (p.generation d).isKnown = true := by
  by_contra hunknown
  exact h (.unknown (Bool.not_eq_true _ ▸ hunknown))

theorem exists_accounts {r : Registry} {current : Option Nat}
    (hx : x.dispatcher = .chosenBefore r current) (hgoes : ¬ x.Stops p d) :
    ∃ d₁ m,
      (x.scaffolder (p.withGeneration (p.generation d)) x.options).finish d = (.ok (), d₁) ∧
        (x.run p d).1.report = some m ∧
        r.Accounts (p.generation d) (p.withGeneration (p.generation d)) d₁ (x.run p d).2 m := by
  rcases stops_or_completes x p d with ⟨hstops, -⟩ | ⟨-, d₁, hscaffold, hrun⟩
  · exact (hgoes hstops).elim
  · rw [complete_of_registry hx (known_of_not_stops hgoes)] at hrun
    refine ⟨d₁, _, hscaffold, by rw [hrun, report_outcome], ?_⟩
    rw [hrun]
    exact Migrator.execute_accounts _ _ _ _

/-- With other analyzers in the registry the conversion comes out as it does. -/
theorem conversion_run_of_analyzers {r : Registry} {current : Option Nat}
    (hx : x.dispatcher = .chosenBefore r current) (analyzers : List Analyzer) :
    let other := { x with dispatcher := .chosenBefore { r with analyzers := analyzers } current }
    (other.run p d).1.report.bind Migration.conversion =
        (x.run p d).1.report.bind Migration.conversion ∧ (other.run p d).2 = (x.run p d).2 := by
  intro other
  by_cases hknown : (p.generation d).isKnown = true
  · have hwork : x.Workable p d := ⟨hknown, hx ▸ Dispatcher.supports_chosenBefore r current hknown⟩
    have hwork' : other.Workable p d := ⟨hknown, Dispatcher.supports_chosenBefore _ current hknown⟩
    rw [run_of_workable hwork, run_of_workable hwork']
    cases (x.scaffolder (p.withGeneration (p.generation d)) x.options).finish d with
    | mk result d₁ =>
        cases result with
        | error e => exact ⟨rfl, rfl⟩
        | ok done =>
            simp only [complete_of_registry hx hknown, complete_of_registry (x := other) rfl hknown,
              report_outcome]
            exact ⟨rfl, rfl⟩
  · obtain ⟨_, hrun⟩ := run_of_not_workable (x := x) fun h => hknown h.known
    obtain ⟨_, hrun'⟩ := run_of_not_workable (x := other) fun h => hknown h.known
    rw [hrun, hrun']
    exact ⟨rfl, rfl⟩

/-! ## What an outcome says -/

structure Faithful (x : Resettlement) (p : Project) (d : Disk) : Prop where
  /-- The scaffolder is asked once at most, for the project with its generation. -/
  askedOnce : x.Workable p d → Scaffolder.AskedOnce (fun s => (x.scaffoldedBy s).run p d)
    (p.withGeneration (p.generation d)) x.options d
  /-- Without a generation, or without a migrator for it, the scaffolder is not asked. -/
  notAsked : ¬ x.Workable p d → Scaffolder.NotAsked fun s => (x.scaffoldedBy s).run p d
  generation : (x.run p d).1.generation = p.generation d
  report : (x.run p d).1.report = none ↔ x.Stops p d
  success : (x.run p d).1.success = true ↔
    ∃ m, (x.run p d).1.report = some m ∧ m.conversion = some (.completed true)
  /-- By the migrators of a registry, a migration that does not stop has a section of the analyzer
  and one of the converter. -/
  sections : ∀ r current, x.dispatcher = .chosenBefore r current → ¬ x.Stops p d → ∃ d₁ m,
    (x.scaffolder (p.withGeneration (p.generation d)) x.options).finish d = (.ok (), d₁) ∧
      (x.run p d).1.report = some m ∧
      r.Accounts (p.generation d) (p.withGeneration (p.generation d)) d₁ (x.run p d).2 m
  /-- With other analyzers the conversion comes out as it does and leaves the same disk. -/
  independent : ∀ r current analyzers, x.dispatcher = .chosenBefore r current →
    let other := { x with dispatcher := .chosenBefore { r with analyzers := analyzers } current }
    (other.run p d).1.report.bind Migration.conversion =
        (x.run p d).1.report.bind Migration.conversion ∧ (other.run p d).2 = (x.run p d).2

theorem run_faithful (x : Resettlement) (p : Project) (d : Disk) : x.Faithful p d where
  askedOnce := askedOnce_of_workable
  notAsked := notAsked_of_not_workable
  generation := generation_run x p d
  report := report_run_eq_none_iff x p d
  success := success_run_iff x p d
  sections := fun _ _ => exists_accounts
  independent := fun _ _ analyzers hx => conversion_run_of_analyzers hx analyzers

/-- A resettlement over an analyzer that fails and a converter that makes the target directory. -/
def halfBroken : Resettlement where
  dispatcher := .chosenBefore
    ⟨[⟨fun _ => true, fun _ _ => .error (.validation "broken analysis")⟩],
      [⟨fun g => g == .ci3, fun p => do
        Action.ensureDirectory p.target
        return true⟩]⟩ (some 0)
  scaffolder := fun _ _ => pure ()
  options := {}

/-- A migration whose analysis fails is converted all the same, and succeeds. -/
theorem run_faithful_halfBroken :
    let p : Project := ⟨⟨"legacy"⟩, ⟨"out"⟩, "shop", some .ci3⟩
    ¬ halfBroken.Stops p (.empty []) ∧
      (halfBroken.run p (.empty [])).1.success = true ∧
      ∃ m, (halfBroken.run p (.empty [])).1.report = some m ∧
        m.analysis = some (.failure "Validation error: broken analysis") ∧
        m.conversion = some (.completed true) := by
  intro p
  have hfaithful := run_faithful halfBroken p (.empty [])
  have hgoes : ¬ halfBroken.Stops p (.empty []) := fun hstops =>
    absurd (hfaithful.report.2 hstops) (by decide +kernel)
  obtain ⟨d₁, m, hscaffold, hreport, haccounts⟩ := hfaithful.sections _ _ rfl hgoes
  obtain rfl : Disk.empty [] = d₁ := congrArg Prod.snd hscaffold
  have hconversion : m.conversion = some (.completed true) :=
    (congrArg Prod.fst haccounts.conversion).trans (by decide +kernel)
  exact ⟨hgoes, hfaithful.success.2 ⟨m, hreport, hconversion⟩, m, hreport, haccounts.analysis,
    hconversion⟩

end Resettlement

end Resettle
