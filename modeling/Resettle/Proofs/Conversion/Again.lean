import Resettle.Proofs.ConnectionBlock.Again
import Resettle.Proofs.Conversion.Running
import Resettle.Proofs.EnvFile.Setting

/-!
# Converting a project again

A second conversion with the same sources succeeds and leaves the environment file as the first
one wrote it.  The database configuration stays as well just if every entry of the driver's block
reads as it was written.
-/

namespace Resettle

/-! ## Updates -/

theorem ConnectionDriver.isWord_name (driver : ConnectionDriver) :
    ConnectionBlock.IsWord driver.name.toList := by
  cases driver <;> decide

theorem ConnectionDriver.keys_fields (driver : ConnectionDriver) (values : Values) :
    (driver.fields values).map Prod.fst = (driver.fields .empty).map Prod.fst := by
  cases driver <;> rfl

/-- The fields of a driver are quiet if no lead of a key stands in a literal. -/
theorem ConnectionDriver.quiet_fields {driver : ConnectionDriver} {values : Values}
    (h : ConnectionBlock.LeadFree (driver.fields values)) :
    ConnectionBlock.Quiet (driver.fields values) where
  words := by
    have hkeys : ∀ key ∈ (driver.fields .empty).map Prod.fst,
        ConnectionBlock.IsWord key.toList := by
      cases driver <;> decide
    intro u hu
    rw [← driver.keys_fields values] at hkeys
    exact hkeys u.1 (List.mem_map_of_mem hu)
  distinct := by
    rw [driver.keys_fields values]
    cases driver <;> decide
  literals := h

theorem Updates.isKey_environment (config database : Values) (s : Settings) :
    ∀ u ∈ Updates.environment config database s, EnvFile.IsKey u.1.toList := by
  have hkeys : ∀ key ∈ (Updates.environment config database s).map Prod.fst,
      EnvFile.IsKey key.toList := by
    unfold Updates.environment
    simp only [List.map_cons, List.map_nil]
    decide
  exact fun u hu => hkeys u.1 (List.mem_map_of_mem hu)

namespace Conversion

variable {s : Settings} {g : Generation} {p : Project} {d d₁ : Disk}

theorem sources_congr (hconfig : d₁.text (p.configFile g) = d.text (p.configFile g))
    (hdatabase : d₁.text (p.databaseFile g) = d.text (p.databaseFile g)) :
    sources s g p d₁ = sources s g p d := by
  unfold sources Collector.ofFile Php.ofFile Disk.readText
  rw [hconfig, hdatabase]

def Sources.driver (src : Sources) : String :=
  (Updates.connection src.database).1.name

def Sources.fields (src : Sources) : List (String × Scalar) :=
  (Updates.connection src.database).2

theorem patched_eq_ok_iff {src : Sources} {t new : Targets} :
    patched s p src t = .ok new ↔
      ConnectionBlock.patch? t.database src.driver src.fields = some new.database ∧
        new.env = EnvFile.setAll t.env (Updates.environment src.config src.database s) := by
  unfold patched Sources.driver Sources.fields
  simp only
  cases ConnectionBlock.patch? t.database _ _ with
  | none => simp
  | some database =>
      obtain ⟨env, database'⟩ := new
      simp only [Except.ok.injEq, Targets.mk.injEq, Option.some.injEq]
      exact ⟨fun h => ⟨h.2, h.1.symm⟩, fun h => ⟨h.2.symm, h.1⟩⟩

theorem plan_of_sources {src : Sources} {t new : Targets}
    (hsrc : sources s g p d = .ok (some src)) (ht : targets p d = .ok t)
    (hnew : patched s p src t = .ok new) : plan s g p d = .ok (some new) := by
  unfold plan
  rw [hsrc]
  simp only [bind, Except.bind, ht, hnew]
  rfl

/-- A conversion with the same sources as before succeeds and leaves the environment file alone. -/
theorem exists_second_run (hrun : (run s g p).finish d = (.ok true, d₁))
    (hconfig : d₁.text (p.configFile g) = d.text (p.configFile g))
    (hdatabase : d₁.text (p.databaseFile g) = d.text (p.databaseFile g)) :
    ∃ src old new again d₂, sources s g p d = .ok (some src) ∧ targets p d = .ok old ∧
      ConnectionBlock.patch? old.database src.driver src.fields = some new.database ∧
      targets p d₁ = .ok new ∧
      ConnectionBlock.patch? new.database src.driver src.fields = some again ∧
      (run s g p).finish d₁ = (.ok true, d₂) ∧ targets p d₂ = .ok ⟨new.env, again⟩ ∧
      (again = new.database → d₂ = d₁) := by
  obtain ⟨new, hplan, hnew⟩ := exists_plan_of_finish hrun
  obtain ⟨src, old, hsrc, hold, hpatched⟩ := plan_eq_ok_some hplan
  obtain ⟨hpatch, henv⟩ := patched_eq_ok_iff.1 hpatched
  obtain ⟨again, hagain⟩ := ConnectionBlock.exists_patch?_again
    (ConnectionDriver.isWord_name (Updates.connection src.database).1) hpatch
  have hsame : new.env =
      EnvFile.setAll new.env (Updates.environment src.config src.database s) := by
    rw [henv, EnvFile.setAll_setAll _ (Updates.isKey_environment _ _ _)]
  have hsrc₁ := (sources_congr hconfig hdatabase).trans hsrc
  have hplan₁ : plan s g p d₁ = .ok (some ⟨new.env, again⟩) :=
    plan_of_sources hsrc₁ hnew (patched_eq_ok_iff.2 ⟨hagain, hsame⟩)
  obtain ⟨_, _, _, d₂, _, _, _, _, hrun₁⟩ := finish_of_plan_some hplan₁
  obtain ⟨t, hplan₂, hdone⟩ := exists_plan_of_finish hrun₁
  rw [hplan₁] at hplan₂
  obtain rfl := Option.some.inj (Except.ok.inj hplan₂)
  refine ⟨src, old, new, again, d₂, hsrc, hold, hpatch, hnew, hagain, hrun₁, hdone, ?_⟩
  rintro rfl
  rw [finish_of_plan_done hplan₁ hnew] at hrun₁
  exact (congrArg Prod.snd hrun₁).symm

/-- After a conversion that succeeds and leaves its sources as they are, a second one succeeds and
leaves the environment file as it is.  It changes nothing at all if every entry of the driver's
block is settled; and if no lead stands in a literal, it keeps the database configuration only
then, which is to say, where entries had lines of their own, if every literal reads back. -/
theorem run_again (hrun : (run s g p).finish d = (.ok true, d₁))
    (hconfig : d₁.text (p.configFile g) = d.text (p.configFile g))
    (hdatabase : d₁.text (p.databaseFile g) = d.text (p.databaseFile g)) :
    ∃ src old new d₂, sources s g p d = .ok (some src) ∧ targets p d = .ok old ∧
      targets p d₁ = .ok new ∧ (run s g p).finish d₁ = (.ok true, d₂) ∧
      d₂.text p.targetEnv = .ok new.env ∧
      (ConnectionBlock.SettledIn new.database src.driver src.fields → d₂ = d₁) ∧
      (ConnectionBlock.LeadFree src.fields →
        (d₂.text p.targetDatabase = .ok new.database ↔
          ConnectionBlock.SettledIn new.database src.driver src.fields) ∧
        (ConnectionBlock.OwnLinesIn old.database src.driver src.fields →
          (d₂.text p.targetDatabase = .ok new.database ↔
            ∀ u ∈ src.fields, ConnectionBlock.ReadsBack u.2))) := by
  obtain ⟨src, old, new, again, d₂, hsrc, hold, hpatch, hnew, hagain, hrun₁, hdone, hsame⟩ :=
    exists_second_run hrun hconfig hdatabase
  obtain ⟨henv, hdatabase₂⟩ := targets_eq_ok_iff.1 hdone
  have hkept : d₂.text p.targetDatabase = .ok new.database ↔
      ConnectionBlock.patch? new.database src.driver src.fields = some new.database := by
    rw [hdatabase₂, hagain, Except.ok.injEq, Option.some.injEq]
  refine ⟨src, old, new, d₂, hsrc, hold, hnew, hrun₁, henv, ?_, ?_⟩
  · intro hsettled
    rw [hsettled.patch?_eq_self] at hagain
    exact hsame (Option.some.inj hagain).symm
  · intro hleads
    have hquiet : ConnectionBlock.Quiet src.fields := ConnectionDriver.quiet_fields hleads
    rw [hkept, hquiet.patch?_eq_self_iff]
    exact ⟨Iff.rfl, fun hlines =>
      hlines.settledIn_iff hquiet (ConnectionDriver.isWord_name _) hpatch⟩

/-- A source project with a table prefix, and a target in the directory of the source. -/
def withPrefix (tablePrefix : String) : Disk :=
  .ofEntries
    [([], "application", .directory), (["application"], "config", .directory),
      (["application", "config"], "config.php", .file (.text "<?php ") false),
      (["application", "config"], "database.php",
        .file (.text ("<?php $db['default'] = array('dbdriver' => 'sqlite3', 'dbprefix' => '" ++
          tablePrefix ++ "');")) false),
      ([], "config", .directory),
      (["config"], "database.php",
        .file (.text "<?php return [\n'sqlite' => [\n'prefix' => '',\n],\n];\n") false),
      ([], ".env", .file (.text "") false)]

def inPlace : Project :=
  ⟨⟨""⟩, ⟨""⟩, ".", some .ci3⟩

theorem eq_of_fst {x : Except Error Bool × Disk} (h : x.1 = .ok true) : x = (.ok true, x.2) :=
  Prod.ext h rfl

/-- A plain prefix is kept by a second conversion. -/
theorem run_again_plain :
    let d := withPrefix "app_"
    ∃ d₁ d₂, (run {} .ci3 inPlace).finish d = (.ok true, d₁) ∧
      (run {} .ci3 inPlace).finish d₁ = (.ok true, d₂) ∧
      d₂.text inPlace.targetEnv = d₁.text inPlace.targetEnv ∧
      d₂.text inPlace.targetDatabase = d₁.text inPlace.targetDatabase := by
  intro d
  have hdone : ((run {} .ci3 inPlace).finish d).1 = .ok true ∧
      ∀ file ∈ [inPlace.configFile .ci3, inPlace.databaseFile .ci3],
        ((run {} .ci3 inPlace).finish d).2.text file = d.text file := by
    decide +kernel
  obtain ⟨hok, hfiles⟩ := hdone
  have hrun := eq_of_fst hok
  obtain ⟨src, old, new, d₂, hsrc, hold, hnew, hagain, henv, -, hexact⟩ :=
    run_again hrun (hfiles _ (by simp)) (hfiles _ (by simp))
  have htame : ∀ src ∈ (sources {} .ci3 inPlace d).toOption.join,
      ∀ old ∈ (targets inPlace d).toOption, ConnectionBlock.LeadFree src.fields ∧
        ConnectionBlock.OwnLinesIn old.database src.driver src.fields ∧
        ∀ u ∈ src.fields, ConnectionBlock.ReadsBack u.2 := by
    decide +kernel
  obtain ⟨hleads, hlines, hreads⟩ := htame src (by rw [hsrc]; rfl) old (by rw [hold]; rfl)
  obtain ⟨henv₁, hdatabase₁⟩ := targets_eq_ok_iff.1 hnew
  refine ⟨_, d₂, hrun, hagain, henv.trans henv₁.symm, ?_⟩
  rw [hdatabase₁]
  exact ((hexact hleads).2 hlines).2 hreads

/-- A prefix that reads like a comment grows with a second conversion. -/
theorem not_run_again_commented :
    let d := withPrefix "a //b"
    ∃ d₁ d₂, (run {} .ci3 inPlace).finish d = (.ok true, d₁) ∧
      d₁.text (inPlace.configFile .ci3) = d.text (inPlace.configFile .ci3) ∧
      d₁.text (inPlace.databaseFile .ci3) = d.text (inPlace.databaseFile .ci3) ∧
      (run {} .ci3 inPlace).finish d₁ = (.ok true, d₂) ∧
      d₂.text inPlace.targetDatabase ≠ d₁.text inPlace.targetDatabase := by
  have hdone :
      let d := withPrefix "a //b"
      let first := (run {} .ci3 inPlace).finish d
      let second := (run {} .ci3 inPlace).finish first.2
      first.1 = .ok true ∧
        first.2.text (inPlace.configFile .ci3) = d.text (inPlace.configFile .ci3) ∧
        first.2.text (inPlace.databaseFile .ci3) = d.text (inPlace.databaseFile .ci3) ∧
        second.1 = .ok true ∧
        second.2.text inPlace.targetDatabase ≠ first.2.text inPlace.targetDatabase := by
    decide +kernel
  obtain ⟨hfirst, hconfig, hdatabase, hsecond, hne⟩ := hdone
  exact ⟨_, _, eq_of_fst hfirst, hconfig, hdatabase, eq_of_fst hsecond, hne⟩

end Conversion

end Resettle
