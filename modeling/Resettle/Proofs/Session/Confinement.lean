import Resettle.Proofs.Path.Resolution
import Resettle.Proofs.Session.Starting

/-!
# Where sessions write

A session prepares a directory beside its source and puts the target project into it, under the
name that the request gives.  The target lies in the prepared directory whatever the source is,
just if the name stays inside; the bounds on its length do not see to that.
-/

namespace Resettle.Sessions

/-! ## The places of the target -/

/-- The directory of a project's target and the two files in it that are changed. -/
def places (p : Project) : List Path :=
  [p.target, p.targetEnv, p.targetDatabase]

theorem output_project (m : PendingMigration) (r : StartRequest) (output : Path) :
    (project m r output).target = output.join r.projectName := by
  unfold project Project.withGeneration
  split <;> rfl

theorem isBelow_target (p : Project) :
    p.targetEnv.IsBelow p.target ∧ p.targetDatabase.IsBelow p.target := by
  have henv : Path.StaysInside ".env" := by decide +kernel
  have hconfig : Path.StaysInside "config" := by decide +kernel
  have hdatabase : Path.StaysInside "database.php" := by decide +kernel
  exact ⟨henv.isBelow_join _, (hdatabase.isBelow_join _).trans (hconfig.isBelow_join _)⟩

/-- Whether everything that a session may change lies strictly below the directory that is prepared
for it, whatever source was registered and whatever the disk holds. -/
def Confined (r : StartRequest) : Prop :=
  ∀ m d output d', (Action.freshDirectory (migratedDirectory m.source)).finish d = (.ok output, d') →
    ∀ place ∈ places (project m r output), place.IsBelow output

theorem confined_of_staysInside {r : StartRequest} (h : Path.StaysInside r.projectName) :
    Confined r := by
  intro m _ output _ _ place hplace
  have htarget : (project m r output).target.IsBelow output := by
    rw [output_project]
    exact h.isBelow_join output
  obtain ⟨henv, hdatabase⟩ := isBelow_target (project m r output)
  simp only [places, List.mem_cons, List.not_mem_nil, or_false] at hplace
  rcases hplace with rfl | rfl | rfl
  · exact htarget
  · exact henv.trans htarget
  · exact hdatabase.trans htarget

/-! ## Names that lead outside -/

def shop : PendingMigration :=
  ⟨⟨"shop"⟩, .ci3⟩

def taken : Disk :=
  .ofEntries [([], "migrated", .directory)]

/-- Beside the source the first directory is prepared where it is free, and the second where the
first is taken. -/
theorem freshDirectory_shop :
    ((Action.freshDirectory (migratedDirectory shop.source)).finish (.empty [])).1 =
        .ok ⟨"migrated"⟩ ∧
      ((Action.freshDirectory (migratedDirectory shop.source)).finish taken).1 =
        .ok ⟨"migrated_1"⟩ := by
  decide +kernel

/-- A name that leads below a directory of the working directory stays inside, or leaves the
directory and enters it again by its name. -/
theorem cases_of_isBelow {name directory : String}
    (hdirectory : (⟨directory⟩ : Path).resolve = ⟨false, 0, [directory]⟩)
    (h : ((⟨directory⟩ : Path).join name).IsBelow ⟨directory⟩) :
    Path.StaysInside name ∨ (⟨name⟩ : Path).resolve.names.head? = some directory := by
  cases hrelative : (⟨name⟩ : Path).isAbsolute with
  | true =>
      have hhead : name.toList.head? = some '/' := by simpa [Path.isAbsolute] using hrelative
      have habsolute := h.absolute
      rw [Path.join, if_pos hhead, Path.absolute_resolve, hrelative, hdirectory] at habsolute
      cases habsolute
  | false =>
      have hjoin := Path.resolve_join_eq_descend ⟨directory⟩ hrelative
      have hup := h.up
      have hunder := h.under
      have hstrict := h.strict
      rw [hdirectory] at hjoin hup hunder hstrict
      rw [hjoin] at hup hunder hstrict
      rcases hclimb : (⟨name⟩ : Path).resolve.up with _ | _ | k
      · rw [hclimb, Path.Resolved.climb_zero] at hstrict
        refine .inl ⟨hrelative, hclimb, fun hnil => hstrict ?_⟩
        rw [hnil]
        rfl
      · rw [hclimb, Path.Resolved.climb_single] at hunder
        obtain ⟨more, hmore⟩ := hunder
        exact .inr (by simp [Path.Resolved.descend] at hmore; simp [← hmore])
      · rw [hclimb, Path.Resolved.climb_single] at hup
        cases hup

theorem staysInside_of_confined {r : StartRequest} (h : Confined r) :
    Path.StaysInside r.projectName := by
  obtain ⟨hfree, htaken⟩ := freshDirectory_shop
  have hbelow : ∀ d output, ((Action.freshDirectory (migratedDirectory shop.source)).finish d).1 =
      .ok output → (output.join r.projectName).IsBelow output := by
    intro d output hfresh
    rw [← output_project shop]
    exact h shop d output _ (Prod.ext hfresh rfl) _ List.mem_cons_self
  rcases cases_of_isBelow (by decide +kernel) (hbelow _ _ hfree) with hstays | hmigrated
  · exact hstays
  · rcases cases_of_isBelow (by decide +kernel) (hbelow _ _ htaken) with hstays | hmigrated'
    · exact hstays
    · rw [hmigrated] at hmigrated'
      exact absurd (Option.some.inj hmigrated') (by decide)

/-- Every start that has an outcome ran in a directory prepared for it.  All that it may change of
its target lies strictly below that directory, for every source and every disk, just if the
requested name is relative, never leads above where it starts, and leads somewhere. -/
theorem confined_iff (r : StartRequest) :
    (∀ (x rest : Sessions) id scaffolder d d' outcome,
      (x.start id r scaffolder).run d = ((.ok outcome, rest), d') →
        ∃ m output d₁, x.take id r = .ok (m, rest) ∧
          (Action.freshDirectory (migratedDirectory m.source)).finish d = (.ok output, d₁) ∧
          (x.runIn m r scaffolder output).run d₁ = (outcome, d')) ∧
      (Confined r ↔ Path.StaysInside r.projectName) :=
  ⟨fun _ _ _ _ _ _ _ h => exists_run_of_start h, staysInside_of_confined, confined_of_staysInside⟩

def climbing : StartRequest :=
  ⟨"../shop", "10.x", false⟩

/-- The bounds on names accept one that leads out of the prepared directory. -/
theorem not_confined_climbing : climbing.refusal? = none ∧ ¬ Confined climbing := by
  refine ⟨by decide +kernel, fun h => ?_⟩
  have hstays := staysInside_of_confined h
  exact absurd hstays (by decide +kernel)

end Resettle.Sessions
