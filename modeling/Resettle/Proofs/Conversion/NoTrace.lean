import Resettle.Proofs.Conversion.Running
import Resettle.Proofs.Resettlement.Stages

/-!
# Conversions that fail leave no trace

A conversion touches no place but those of its two target files, and it touches these only if it
succeeds or could not write.  A migration into a target that is there already changes nothing
else, so it leaves the disk alone unless it succeeds or its conversion could not write.
-/

namespace Resettle

/-! ## One conversion -/

namespace Conversion

variable (s : Settings) (g : Generation) (p : Project) (d : Disk)

/-- Every place but those of the target files keeps what lies there. -/
theorem entryAt?_finish_of_ne {place : Place} (henv : d.placeOf p.targetEnv ≠ .ok place)
    (hdatabase : d.placeOf p.targetDatabase ≠ .ok place) :
    ((run s g p).finish d).2.entryAt? place = d.entryAt? place := by
  cases hplan : plan s g p d with
  | error e => rw [finish_of_plan_error hplan]
  | ok planned =>
      cases planned with
      | none => rw [finish_of_plan_none hplan]
      | some t =>
          obtain ⟨database, env, d₁, d₂, hd, he, h₁, h₂, hrun⟩ := finish_of_plan_some hplan
          have hne : place ≠ env := fun heq => henv (heq ▸ he)
          have hne₁ : place ≠ database := fun heq => hdatabase (heq ▸ hd)
          rw [hrun, h₂.elsewhere place hne, h₁.elsewhere place hne₁]

/-- A conversion that ends without success and not in a write leaves the disk alone. -/
theorem finish_eq_of_failure {r : Except Error Bool} {d' : Disk}
    (hrun : (run s g p).finish d = (r, d'))
    (hr : r = .ok false ∨ ∃ e, r = .error e ∧ e.isWrite = false) : d' = d := by
  cases hplan : plan s g p d with
  | error e =>
      rw [finish_of_plan_error hplan] at hrun
      exact (congrArg Prod.snd hrun).symm
  | ok planned =>
      cases planned with
      | none =>
          rw [finish_of_plan_none hplan] at hrun
          exact (congrArg Prod.snd hrun).symm
      | some t =>
          obtain ⟨_, _, _, _, _, _, _, _, hdone⟩ := finish_of_plan_some hplan
          rw [hdone] at hrun
          have hsuccess : r = .ok true := (congrArg Prod.fst hrun).symm
          rcases hr with hr | ⟨e, hr, _⟩ <;> rw [hsuccess] at hr <;> cases hr

end Conversion

/-! ## The wording of write errors -/

theorem Error.append_ne_append {a b : String} (n : Nat) (ha : n ≤ a.toList.length)
    (hb : n ≤ b.toList.length) (hne : a.toList.take n ≠ b.toList.take n) (s t : String) :
    a ++ s ≠ b ++ t := by
  intro h
  have hchars := congrArg (fun x : String => x.toList.take n) h
  simp only [String.toList_append, List.take_append_of_le_length ha,
    List.take_append_of_le_length hb] at hchars
  exact hne hchars

/-- No other error is worded like that of a write, so a report tells write errors apart. -/
theorem Error.message_ne_write {e : Error} (he : e.isWrite = false) (path : Path)
    (cause : Failure) : e.message ≠ (Error.write path cause).message := by
  intro h
  unfold message at h
  cases e with
  | write _ _ => cases he
  | _ =>
      -- The first eleven characters tell `Failed to write` from `Failed to read` and the rest.
      simp only [String.append_assoc] at h
      exact append_ne_append 11 (by decide) (by decide) (by decide) _ _ h

/-! ## Migrations -/

/-- The converters of a registry are those of generations. -/
def Registry.ConvertsGenerations (r : Registry) : Prop :=
  ∀ c ∈ r.converters, ∃ s g, c = Converter.ofGeneration s g

/-- The migrators of a dispatcher are those of generations and convert with their converters. -/
def Dispatcher.MigratesGenerations (x : Dispatcher) : Prop :=
  ∀ m ∈ x.migrators, ∃ g r, m = Migrator.ofGeneration g r ∧ r.ConvertsGenerations

/-- The conversion of a migration ended in a write. -/
def Migration.FailedToWrite (m : Migration) : Prop :=
  ∃ path cause, m.conversion = some (.failure (Error.write path cause).message)

theorem Migration.failedToWrite_iff (a : Option (Section Inventory)) (e : Error) :
    FailedToWrite ⟨a, some (Section.ofResult (.error e))⟩ ↔ e.isWrite = true := by
  constructor
  · rintro ⟨path, cause, h⟩
    by_contra hno
    rw [Bool.not_eq_true] at hno
    simp only [Section.ofResult, Section.failure, Option.some.injEq, Section.failed.injEq] at h
    exact Error.message_ne_write hno path cause h.2
  · intro h
    cases e with
    | write path cause => exact ⟨path, cause, rfl⟩
    | _ => cases h

/-- A target that is there already is looked at and not touched. -/
theorem Scaffolding.existing_leavesDisk (p : Project) (o : ScaffoldOptions) :
    Action.LeavesDisk (existing p o) := by
  have requireFile_leavesDisk : ∀ file, Action.LeavesDisk (requireFile file) := by
    intro file
    refine Action.leavesDisk_get.bind fun d => ?_
    split
    · exact Action.leavesDisk_throw _
    · exact Action.leavesDisk_pure _
  refine Action.leavesDisk_get.bind fun d => ?_
  split
  · exact (Action.leavesDisk_throw _).bind fun _ =>
      (requireFile_leavesDisk _).bind fun _ => requireFile_leavesDisk _
  · exact (requireFile_leavesDisk _).bind fun _ => requireFile_leavesDisk _

theorem Migrator.conversion_eq (g g' : Generation) (s : Settings) (p : Project) (d : Disk) :
    conversion g (some (Converter.ofGeneration s g')) p d =
      (Section.ofResult ((Conversion.run s g' p).finish d).1, ((Conversion.run s g' p).finish d).2) :=
  rfl

theorem Migrator.execute_eq (g : Generation) (r : Registry) (p : Project) (d : Disk) :
    (ofGeneration g r).execute p d =
      (⟨some (analysis g (r.analyzer? g) p d), some (conversion g (r.converter? g) p d).1⟩,
        (conversion g (r.converter? g) p d).2) :=
  rfl

/-- A migrator whose conversion neither succeeded nor ended in a write leaves the disk alone. -/
theorem Migrator.execute_snd_of_failure {g : Generation} {r : Registry}
    (hr : r.ConvertsGenerations) (p : Project) (d : Disk)
    (hfailed : ((ofGeneration g r).execute p d).1.conversionSucceeded = false)
    (hwrite : ¬ ((ofGeneration g r).execute p d).1.FailedToWrite) :
    ((ofGeneration g r).execute p d).2 = d := by
  rw [execute_eq] at hfailed hwrite ⊢
  cases hc : r.converter? g with
  | none =>
      rfl
  | some c =>
      obtain ⟨s, g', rfl⟩ := hr c (List.mem_of_find?_eq_some hc)
      rw [hc, conversion_eq] at hfailed hwrite
      rw [conversion_eq]
      cases hrun : (Conversion.run s g' p).finish d with
      | mk result d' =>
          rw [hrun] at hfailed hwrite
          refine Conversion.finish_eq_of_failure s g' p d hrun ?_
          cases result with
          | ok done =>
              cases done with
              | false => exact .inl rfl
              | true => simp [Section.ofResult, Migration.conversionSucceeded] at hfailed
          | error e =>
              rw [Migration.failedToWrite_iff, Bool.not_eq_true] at hwrite
              exact .inr ⟨e, rfl, hwrite⟩

/-! ## Resettlements -/

theorem Dispatcher.chosen_mem {x : Dispatcher} {m : Migrator} (h : x.chosen? = some m) :
    m ∈ x.migrators := by
  obtain ⟨i, _, hi⟩ := Option.bind_eq_some_iff.1 h
  exact List.mem_of_getElem? hi

theorem Dispatcher.migrators_choose (x : Dispatcher) (g : Generation) :
    (x.choose g).2.migrators = x.migrators := by
  unfold choose
  split <;> rfl

theorem Dispatcher.execute_snd_of_failure {x : Dispatcher} (hx : x.MigratesGenerations)
    (p : Project) (d : Disk) (hfailed : (x.execute p d).1.conversionSucceeded = false)
    (hwrite : ¬ (x.execute p d).1.FailedToWrite) : (x.execute p d).2 = d := by
  unfold execute at hfailed hwrite ⊢
  cases hm : x.chosen? with
  | none => rfl
  | some m =>
      obtain ⟨g, r, rfl, hr⟩ := hx m (chosen_mem hm)
      rw [hm] at hfailed hwrite
      exact Migrator.execute_snd_of_failure hr p d hfailed hwrite

namespace Resettlement

/-- Over a scaffolder that changes nothing, a migration stops before it began, or its outcome and
its changes are those of the chosen migrator. -/
theorem run_cases {x : Resettlement} {p : Project}
    (hx : ∀ project, Action.LeavesDisk (x.scaffolder project x.options)) (d : Disk) :
    (∃ message, x.run p d = (stopped (p.generation d) message, d)) ∨
      ∃ project, x.run p d =
        (outcome (p.generation d) p.target
            ((x.dispatcher.choose (p.generation d)).2.execute project d).1,
          ((x.dispatcher.choose (p.generation d)).2.execute project d).2) := by
  by_cases h : x.Workable p d
  · have hleft := hx (p.withGeneration (p.generation d)) d
    rw [run_of_workable h]
    cases hscaffold : (x.scaffolder (p.withGeneration (p.generation d)) x.options).finish d with
    | mk result d' =>
        rw [hscaffold] at hleft
        obtain rfl : d' = d := hleft
        cases result with
        | error e => exact .inl ⟨e.message, rfl⟩
        | ok done =>
            refine .inr ⟨p.withGeneration (p.generation d'), ?_⟩
            simp only
            rw [complete_eq, Project.target_withGeneration]
  · exact .inl (run_of_not_workable h)

/-- A migration into a target that is there already changes nothing unless it succeeds or its
conversion ended in a write. -/
theorem run_snd_of_failure {x : Resettlement} {p : Project} {d d' : Disk} {o : Outcome}
    (hscaffolder : x.scaffolder = Scaffolding.existing)
    (hdispatcher : x.dispatcher.MigratesGenerations) (hrun : x.run p d = (o, d'))
    (hfailed : o.success = false) (hwrite : ∀ m, o.report = some m → ¬ m.FailedToWrite) :
    d' = d := by
  have hleaves : ∀ project, Action.LeavesDisk (x.scaffolder project x.options) := by
    intro project
    rw [hscaffolder]
    exact Scaffolding.existing_leavesDisk project x.options
  rcases run_cases hleaves d with ⟨message, hstopped⟩ | ⟨project, hdone⟩
  · rw [hstopped] at hrun
    exact (congrArg Prod.snd hrun).symm
  · rw [hdone] at hrun
    cases hrun
    rw [success_outcome] at hfailed
    have hchosen : (x.dispatcher.choose (p.generation d)).2.MigratesGenerations := by
      intro m hm
      rw [Dispatcher.migrators_choose] at hm
      exact hdispatcher m hm
    exact Dispatcher.execute_snd_of_failure hchosen project d hfailed
      (hwrite _ (report_outcome _ _ _))

theorem standard_migratesGenerations (c : Scaffolder) (o : ScaffoldOptions) (m : Mode)
    (s : Settings) : (standard c o m s).dispatcher.MigratesGenerations := by
  intro migrator hmigrator
  obtain ⟨g, _, rfl⟩ := List.mem_map.1 hmigrator
  refine ⟨g, Registry.standard m s, rfl, fun c hc => ?_⟩
  obtain ⟨g', _, rfl⟩ := List.mem_map.1 hc
  exact ⟨s, g', rfl⟩

end Resettlement

/-- A conversion changes no place but those of its two target files, and nothing at all when it
answers `false` or ends in an error other than of a write.  So a migration into a target that is
there already, by converters of generations, changes nothing unless it succeeds or its conversion
ended in a write. -/
theorem Conversion.leaves_no_trace (s : Settings) (g : Generation) (p : Project) (d : Disk) :
    (∀ place, d.placeOf p.targetEnv ≠ .ok place → d.placeOf p.targetDatabase ≠ .ok place →
      ((run s g p).finish d).2.entryAt? place = d.entryAt? place) ∧
    (∀ r d', (run s g p).finish d = (r, d') →
      (r = .ok false ∨ ∃ e, r = .error e ∧ e.isWrite = false) → d' = d) ∧
    ∀ (x : Resettlement) (o : Outcome) (d' : Disk), x.scaffolder = Scaffolding.existing →
      x.dispatcher.MigratesGenerations → x.run p d = (o, d') → o.success = false →
      (∀ m, o.report = some m → ¬ m.FailedToWrite) → d' = d :=
  ⟨fun _ => entryAt?_finish_of_ne s g p d, fun _ _ => finish_eq_of_failure s g p d,
    fun _ _ _ => Resettlement.run_snd_of_failure⟩

/-- A source project and a target whose database configuration has no block for any driver. -/
def Conversion.blockless : Disk :=
  .ofEntries
    [([], "application", .directory), (["application"], "config", .directory),
      (["application", "config"], "config.php", .file (.text "<?php ") false),
      (["application", "config"], "database.php",
        .file (.text "<?php $db['default'] = array('database' => 'a');") false),
      ([], "config", .directory), (["config"], "database.php", .file (.text "<?php ") false),
      ([], ".env", .file (.text "") false)]

/-- A migration that finds no block for the driver fails and leaves the target as it was. -/
theorem Conversion.leaves_no_trace_blockless :
    let x := Resettlement.standard Scaffolding.existing {} .sequential {}
    let p : Project := ⟨⟨""⟩, ⟨""⟩, ".", some .ci3⟩
    (x.run p blockless).1.success = false ∧ (x.run p blockless).2 = blockless := by
  intro x p
  let e : Error := .patchLocation "mysql" ⟨"./config/database.php"⟩
  have hfailed : (x.run p blockless).1.success = false := by decide +kernel
  have hreport : (x.run p blockless).1.report.bind (·.conversion) =
      some (Section.ofResult (.error e)) := by decide +kernel
  cases hrun : x.run p blockless with
  | mk o d' =>
      rw [hrun] at hfailed hreport
      refine ⟨hfailed, (leaves_no_trace {} .ci3 p blockless).2.2 x o d' rfl
        (Resettlement.standard_migratesGenerations _ _ _ _) hrun hfailed ?_⟩
      intro m hm
      rw [hm, Option.bind_some] at hreport
      obtain ⟨analysis, conversion⟩ := m
      obtain rfl : conversion = some (Section.ofResult (.error e)) := hreport
      rw [Migration.failedToWrite_iff, Bool.not_eq_true]
      rfl

end Resettle
