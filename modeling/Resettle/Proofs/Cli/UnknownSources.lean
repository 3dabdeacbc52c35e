import Resettle.Cli.Run
import Resettle.Proofs.Disk.FreePaths
import Resettle.Proofs.Resettlement.Stages

/-!
# Migrating sources of unknown generation

The command that migrates a project makes a new directory for the output, unless the target is
there already, and only then has the generation told.  A source of unknown generation ends the
command without success, but the directory that was made for it stays.
-/

namespace Resettle.Cli

variable {t : Toolbox} {o : MigrateOptions} {c : Configuration} {d d₁ : Disk} {output : Path}
  {e : Error}

/-! ## The stages of the command -/

def resettlement (t : Toolbox) (o : MigrateOptions) (c : Configuration) : Resettlement :=
  .standard (if o.skipScaffold then Scaffolding.existing else Scaffolding.composer t)
    c.target (mode c false) c.conversion

/-- The project that the command migrates when it has a directory for the output. -/
def project (o : MigrateOptions) (output : Path) : Project :=
  .create o.source output ((o.name.or o.source.fileName?).getD "")

def runInto (t : Toolbox) (o : MigrateOptions) (c : Configuration) (output : Path) :
    StateM Disk Outcome :=
  (resettlement t o c).run (project o output)

theorem finish_migrateWith_of_skipped (h : o.skipScaffold = true) :
    (migrateWith t o c).finish d =
      (.ok ((runInto t o c o.output).run d).1, ((runInto t o c o.output).run d).2) := by
  unfold migrateWith
  rw [if_pos h, Action.finish_bind]
  rfl

theorem finish_migrateWith_of_prepared (h : o.skipScaffold = false)
    (hd : (Action.freshDirectory o.output).finish d = (.ok output, d₁)) :
    (migrateWith t o c).finish d =
      (.ok ((runInto t o c output).run d₁).1, ((runInto t o c output).run d₁).2) := by
  unfold migrateWith
  rw [if_neg (Bool.eq_false_iff.1 h), Action.finish_bind, hd]
  rfl

theorem finish_migrateWith_of_unprepared (h : o.skipScaffold = false)
    (hd : (Action.freshDirectory o.output).finish d = (.error e, d₁)) :
    (migrateWith t o c).finish d = (.error e, d₁) := by
  unfold migrateWith
  rw [if_neg (Bool.eq_false_iff.1 h), Action.finish_bind, hd]

/-- A source of unknown generation ends the migration on the disk that it finds. -/
theorem exists_stop_of_unknown (t : Toolbox) (c : Configuration) (output : Path)
    (h : Generation.detect d o.source = .unknown) :
    ∃ message, (runInto t o c output).run d = (Resettlement.stopped .unknown message, d) := by
  have htold : (project o output).generation d = .unknown := h
  have hstuck : ¬ (resettlement t o c).Workable (project o output) d := fun hworkable => by
    have hknown := hworkable.known
    rw [htold] at hknown
    cases hknown
  obtain ⟨message, hrun⟩ := Resettlement.run_of_not_workable hstuck
  rw [htold] at hrun
  exact ⟨message, hrun⟩

/-! ## Failing without a trace -/

/-- The command ends without success, and the disk is as it was. -/
def FailsCleanly (t : Toolbox) (o : MigrateOptions) (c : Configuration) (d : Disk) : Prop :=
  ∃ outcome, (migrateWith t o c).finish d = (.ok outcome, d) ∧ outcome.success = false

theorem failsCleanly_of_skipped (h : Generation.detect d o.source = .unknown)
    (hskip : o.skipScaffold = true) : FailsCleanly t o c d := by
  obtain ⟨message, hrun⟩ := exists_stop_of_unknown t c o.output h
  have hfinish := finish_migrateWith_of_skipped (t := t) (c := c) (d := d) hskip
  rw [hrun] at hfinish
  exact ⟨_, hfinish, rfl⟩

/-- The command leaves the directory that was made for the output. -/
theorem exists_failure_of_prepared (t : Toolbox) (c : Configuration) (hskip : o.skipScaffold = false)
    (hd : (Action.freshDirectory o.output).finish d = (.ok output, d₁))
    (h : Generation.detect d₁ o.source = .unknown) :
    ∃ outcome, (migrateWith t o c).finish d = (.ok outcome, d₁) ∧ outcome.success = false := by
  obtain ⟨message, hrun⟩ := exists_stop_of_unknown t c output h
  have hfinish := finish_migrateWith_of_prepared (t := t) (c := c) hskip hd
  rw [hrun] at hfinish
  exact ⟨_, hfinish, rfl⟩

theorem failsCleanly_of_empty (h : Generation.detect d o.source = .unknown)
    (hskip : o.skipScaffold = false) (hempty : o.output.text = "") : FailsCleanly t o c d := by
  have hd : (Action.freshDirectory o.output).finish d = (.ok ⟨""⟩, d) := by
    rw [show o.output = ⟨""⟩ from congrArg Path.mk hempty, Action.finish_freshDirectory_empty]
  exact exists_failure_of_prepared t c hskip hd h

theorem not_failsCleanly_of_prepared (hskip : o.skipScaffold = false) (hempty : o.output.text ≠ "")
    (hd : (Action.freshDirectory o.output).finish d = (.ok output, d₁))
    (h : Generation.detect d₁ o.source = .unknown) : ¬ FailsCleanly t o c d := by
  rintro ⟨outcome, hclean, -⟩
  obtain ⟨outcome', hleft, -⟩ := exists_failure_of_prepared t c hskip hd h
  obtain ⟨hfree, -, hmade⟩ := Action.fresh_of_freshDirectory hd
  obtain rfl : d = d₁ := congrArg Prod.snd (hclean.symm.trans hleft)
  rw [Disk.has_of_look (hmade hempty)] at hfree
  cases hfree

theorem not_failsCleanly_of_unprepared (hskip : o.skipScaffold = false)
    (hd : (Action.freshDirectory o.output).finish d = (.error e, d₁)) : ¬ FailsCleanly t o c d := by
  rintro ⟨outcome, hclean, -⟩
  rw [finish_migrateWith_of_unprepared hskip hd] at hclean
  cases hclean

/-- A source of unknown generation leaves no trace just if no directory is made for the output: the
target is there already or the path of the output is empty.  Otherwise the command leaves a
directory that was not there before, unless this directory itself tells the generation of the
source. -/
theorem failsCleanly_of_unknown (t : Toolbox) (c : Configuration)
    (h : Generation.detect d o.source = .unknown) :
    (o.skipScaffold = true ∨ o.output.text = "" → FailsCleanly t o c d) ∧
      (FailsCleanly t o c d → o.skipScaffold = true ∨ o.output.text = "" ∨
        ∃ output d₁, (Action.freshDirectory o.output).finish d = (.ok output, d₁) ∧
          Generation.detect d₁ o.source ≠ .unknown) ∧
      ∀ output d₁, o.skipScaffold = false →
        (Action.freshDirectory o.output).finish d = (.ok output, d₁) →
        Generation.detect d₁ o.source = .unknown →
          (∃ outcome, (migrateWith t o c).finish d = (.ok outcome, d₁) ∧ outcome.success = false) ∧
          d.has output = false ∧ d.Extends d₁ ∧
          (o.output.text ≠ "" → d₁.look output = .ok .directory) := by
  cases hskip : o.skipScaffold with
  | true =>
      exact ⟨fun _ => failsCleanly_of_skipped h hskip, fun _ => .inl rfl,
        fun _ _ hfalse => nomatch hfalse⟩
  | false =>
      refine ⟨fun hempty => failsCleanly_of_empty h hskip (hempty.resolve_left (by decide)),
        fun hclean => .inr ?_, fun output d₁ _ hd hunknown =>
          ⟨exists_failure_of_prepared t c hskip hd hunknown, Action.fresh_of_freshDirectory hd⟩⟩
      by_contra hmade
      rw [not_or] at hmade
      cases hd : (Action.freshDirectory o.output).finish d with
      | mk result d₁ =>
          cases result with
          | error e => exact not_failsCleanly_of_unprepared hskip hd hclean
          | ok output =>
              refine not_failsCleanly_of_prepared hskip hmade.1 hd ?_ hclean
              by_contra hknown
              exact hmade.2 ⟨output, d₁, hd, hknown⟩

/-- A source without any traces of a framework. -/
def untraced : Disk :=
  .ofEntries [([], "src", .directory), (["src"], "index.php", .file (.text "<?php") false)]

def toOut (skipScaffold : Bool) : MigrateOptions where
  source := ⟨"src"⟩
  output := ⟨"out"⟩
  name := some "shop"
  version := none
  sail := false
  skipScaffold := skipScaffold
  lenient := false
  sequential := false
  format := .terminal

theorem freshDirectory_untraced :
    ∃ d₁, (Action.freshDirectory ⟨"out"⟩).finish untraced = (.ok ⟨"out"⟩, d₁) ∧
      Generation.detect d₁ ⟨"src"⟩ = .unknown := by
  have hmade : ((Action.freshDirectory ⟨"out"⟩).finish untraced).1 = .ok ⟨"out"⟩ := by
    decide +kernel
  exact ⟨_, Prod.ext hmade rfl, by decide +kernel⟩

/-- The same command leaves no trace if it takes a target that is there, and otherwise leaves the
directory for its output. -/
theorem failsCleanly_of_unknown_untraced :
    FailsCleanly ⟨[], []⟩ (toOut true) {} untraced ∧
      ∃ d₁, (∃ outcome, (migrateWith ⟨[], []⟩ (toOut false) {}).finish untraced = (.ok outcome, d₁) ∧
        outcome.success = false) ∧ d₁.look ⟨"out"⟩ = .ok .directory := by
  have hdetect : Generation.detect untraced ⟨"src"⟩ = .unknown := by decide +kernel
  obtain ⟨d₁, hmade, hstill⟩ := freshDirectory_untraced
  obtain ⟨hfailure, -, -, hleft⟩ :=
    (failsCleanly_of_unknown (o := toOut false) ⟨[], []⟩ {} hdetect).2.2 _ _ rfl hmade hstill
  exact ⟨(failsCleanly_of_unknown (o := toOut true) ⟨[], []⟩ {} hdetect).1 (.inl rfl), d₁, hfailure,
    hleft (by decide)⟩

theorem not_failsCleanly_untraced :
    Generation.detect untraced ⟨"src"⟩ = .unknown ∧
      ¬ FailsCleanly ⟨[], []⟩ (toOut false) {} untraced := by
  obtain ⟨d₁, hmade, hstill⟩ := freshDirectory_untraced
  exact ⟨by decide +kernel, not_failsCleanly_of_prepared rfl (by decide) hmade hstill⟩

end Resettle.Cli
