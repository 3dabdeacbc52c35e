import Resettle.Conversion
import Resettle.Proofs.Disk.Writing
import Resettle.Proofs.Path.Segments

/-!
# What a conversion does to the disk

A conversion that has no plan, or nothing to convert, leaves the disk alone.  One that has a plan
carries it out: both of its files are there, so both can be written.
-/

namespace Resettle.Conversion

theorem targets_eq_ok_iff {p : Project} {d : Disk} {t : Targets} :
    targets p d = .ok t ↔
      d.text p.targetEnv = .ok t.env ∧ d.text p.targetDatabase = .ok t.database := by
  have hfile : ∀ {file : Path} {s : String}, d.text file = .ok s → d.isFile file = true := by
    intro file s htext
    obtain ⟨executable, hlook⟩ := Disk.text_eq_ok_iff.1 htext
    unfold Disk.isFile
    rw [hlook]
  unfold targets require
  simp only [bind, Except.bind, pure, Except.pure]
  constructor
  · intro h
    split at h <;> try cases h
    split at h <;> try cases h
    split at h <;> try cases h
    next env henv =>
      split at h <;> try cases h
      next database hdatabase =>
        exact ⟨Disk.readText_eq_ok_iff.1 henv, Disk.readText_eq_ok_iff.1 hdatabase⟩
  · rintro ⟨henv, hdatabase⟩
    rw [if_pos (hfile henv), if_pos (hfile hdatabase), Disk.readText_eq_ok_iff.2 henv,
      Disk.readText_eq_ok_iff.2 hdatabase]

theorem placeOf_targets_ne {p : Project} {d : Disk} {t : Targets} (h : targets p d = .ok t) :
    d.placeOf p.targetEnv ≠ d.placeOf p.targetDatabase := by
  have hlast : ∀ {base : Path} {name text : String}, '/' ∉ name.toList → name ≠ "" →
      d.text (base.join name) = .ok text →
      ∃ dir, d.placeOf (base.join name) = .ok (dir ++ [name]) := by
    intro base name text hslash hne htext
    obtain ⟨_, hlook⟩ := Disk.text_eq_ok_iff.1 htext
    obtain ⟨split, dir, -, hsplit, -, -, -, -, hplace⟩ := Disk.exists_parent_of_look hlook
    obtain ⟨front, hcut⟩ := Path.segments_join hslash base
    rw [Disk.splitLast_of_segments hcut hne] at hsplit
    obtain rfl := Option.some.inj hsplit
    exact ⟨dir, hplace⟩
  obtain ⟨henv, hdatabase⟩ := targets_eq_ok_iff.1 h
  obtain ⟨dir, hplace⟩ := hlast (by decide) (by decide) henv
  obtain ⟨dir', hplace'⟩ := hlast (by decide) (by decide) hdatabase
  intro hsame
  have hcut : dir ++ [".env"] = dir' ++ ["database.php"] :=
    Except.ok.inj (hplace.symm.trans (hsame.trans hplace'))
  exact absurd (List.append_inj' hcut rfl).2 (by decide)

theorem plan_eq_ok_some {s : Settings} {g : Generation} {p : Project} {d : Disk} {t : Targets}
    (h : plan s g p d = .ok (some t)) :
    ∃ src old, sources s g p d = .ok (some src) ∧ targets p d = .ok old ∧
      patched s p src old = .ok t := by
  unfold plan at h
  simp only [bind, Except.bind, pure, Except.pure] at h
  cases hsrc : sources s g p d with
  | error e =>
      rw [hsrc] at h
      cases h
  | ok found =>
      rw [hsrc] at h
      cases found with
      | none => cases h
      | some src =>
          cases hold : targets p d with
          | error e =>
              simp only [hold] at h
              cases h
          | ok old =>
              simp only [hold] at h
              cases hnew : patched s p src old with
              | error e =>
                  simp only [hnew] at h
                  cases h
              | ok new =>
                  simp only [hnew] at h
                  cases h
                  exact ⟨src, old, rfl, rfl, hnew⟩

/-! ## Runs -/

variable {s : Settings} {g : Generation} {p : Project} {d : Disk}

theorem finish_of_plan_error {e : Error} (h : plan s g p d = .error e) :
    (run s g p).finish d = (.error e, d) := by
  unfold run
  rw [Action.finish_bind, Action.finish_reading, h]

theorem finish_of_plan_none (h : plan s g p d = .ok none) :
    (run s g p).finish d = (.ok false, d) := by
  unfold run
  rw [Action.finish_bind, Action.finish_reading, h]
  rfl

/-- A plan is carried out: the database configuration is written first and the environment file
on top of it. -/
theorem finish_of_plan_some {t : Targets} (h : plan s g p d = .ok (some t)) :
    ∃ database env d₁ d₂, d.placeOf p.targetDatabase = .ok database ∧
      d.placeOf p.targetEnv = .ok env ∧ d.Rewritten database (.text t.database) d₁ ∧
      d₁.Rewritten env (.text t.env) d₂ ∧ (run s g p).finish d = (.ok true, d₂) := by
  obtain ⟨_, old, _, hold, _⟩ := plan_eq_ok_some h
  obtain ⟨henv, hdatabase⟩ := targets_eq_ok_iff.1 hold
  obtain ⟨_, hlook⟩ := Disk.text_eq_ok_iff.1 hdatabase
  obtain ⟨database, d₁, hplace, hwrite, h₁, _⟩ := Disk.write_of_look hlook (.text t.database)
  have henv₁ : ∃ c executable, d₁.look p.targetEnv = .ok (.file c executable) := by
    by_cases hsame : d.placeOf p.targetEnv = .ok database
    · exact ⟨_, h₁.look hsame⟩
    · obtain ⟨executable, hlookEnv⟩ := Disk.text_eq_ok_iff.1 henv
      exact ⟨_, executable, (h₁.look_of_ne hsame).trans hlookEnv⟩
  obtain ⟨c, executable, hlook₁⟩ := henv₁
  obtain ⟨env, d₂, hplaceEnv, hwriteEnv, h₂, _⟩ := Disk.write_of_look hlook₁ (.text t.env)
  refine ⟨database, env, d₁, d₂, hplace, (h₁.placeOf _).symm.trans hplaceEnv, h₁, h₂, ?_⟩
  unfold run
  rw [Action.finish_bind, Action.finish_reading, h]
  simp only
  rw [Action.finish_bind, Action.finish_writeText_of_write hwrite]
  simp only
  rw [Action.finish_bind, Action.finish_writeText_of_write hwriteEnv]
  rfl

/-- A conversion that succeeds has a plan, and leaves the target files as the plan has them. -/
theorem exists_plan_of_finish {d' : Disk} (h : (run s g p).finish d = (.ok true, d')) :
    ∃ t, plan s g p d = .ok (some t) ∧ targets p d' = .ok t := by
  cases hplan : plan s g p d with
  | error e =>
      rw [finish_of_plan_error hplan] at h
      cases h
  | ok planned =>
      cases planned with
      | none =>
          rw [finish_of_plan_none hplan] at h
          cases h
      | some t =>
          obtain ⟨_, old, _, hold, _⟩ := plan_eq_ok_some hplan
          obtain ⟨database, env, d₁, d₂, hd, he, h₁, h₂, hrun⟩ := finish_of_plan_some hplan
          obtain rfl : d₂ = d' := congrArg Prod.snd (hrun.symm.trans h)
          have hne := placeOf_targets_ne hold
          rw [hd, he] at hne
          have hother : d₁.placeOf p.targetDatabase ≠ .ok env := by
            rw [h₁.placeOf, hd]
            exact hne.symm
          obtain ⟨_, henv⟩ := h₂.look ((h₁.placeOf _).trans he)
          obtain ⟨executable, hdatabase⟩ := h₁.look hd
          rw [← h₂.look_of_ne hother] at hdatabase
          exact ⟨t, rfl, targets_eq_ok_iff.2
            ⟨Disk.text_eq_ok_iff.2 ⟨_, henv⟩, Disk.text_eq_ok_iff.2 ⟨_, hdatabase⟩⟩⟩

/-- A plan that the target files agree with already is carried out without a trace. -/
theorem finish_of_plan_done {t : Targets} (h : plan s g p d = .ok (some t))
    (ht : targets p d = .ok t) : (run s g p).finish d = (.ok true, d) := by
  obtain ⟨henv, hdatabase⟩ := targets_eq_ok_iff.1 ht
  unfold run
  rw [Action.finish_bind, Action.finish_reading, h]
  simp only
  rw [Action.finish_bind, Action.finish_writeText_of_write (Disk.write_of_text hdatabase)]
  simp only
  rw [Action.finish_bind, Action.finish_writeText_of_write (Disk.write_of_text henv)]
  rfl

end Resettle.Conversion
