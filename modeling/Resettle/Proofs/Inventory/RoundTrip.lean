import Resettle.Proofs.Inventory.Batches
import Resettle.Proofs.Json.Records

/-!
# Reports survive JSON

Every report is read back as it was from either spelling of it: each record is found in the value
that it is written as, a failed section is never taken for a completed one, and no report is nested
deeper than a section may be.
-/

namespace Resettle

open Json (Shallow Record)

/-! ## Names -/

@[simp] theorem DependencyKind.ofJson?_name (k : DependencyKind) :
    DependencyKind.ofJson? (.text k.name) = some k := by
  cases k <;> rfl

@[simp] theorem Php.Visibility.ofJson?_keyword (v : Php.Visibility) :
    Php.Visibility.ofJson? (.text v.keyword) = some v := by
  cases v <;> rfl

@[simp] theorem HttpVerb.ofJson?_name (v : HttpVerb) :
    HttpVerb.ofJson? (.text v.name) = some v := by
  cases v <;> rfl

@[simp] theorem Generation.ofJson?_name (g : Generation) :
    Generation.ofJson? (.text g.name) = some g := by
  cases g <;> rfl

/-! ## Records -/

namespace Usage

@[simp] theorem ofJson?_toJson (u : Usage) : ofJson? u.toJson = some u := by
  unfold toJson ofJson?
  rw [Record.ofJson?_record (by simp) (by simp)]
  simp [Record.required?, Record.optional?, Record.find?, Dictionary.find?]

theorem shallow_toJson (u : Usage) : Shallow 1 u.toJson := by
  refine .record ?_
  simp only [List.forall_mem_cons]
  exact ⟨.text 0 _, .text 0 _, .ofText 0 _, List.forall_mem_nil _⟩

end Usage

namespace MethodFact

@[simp] theorem ofJson?_toJson (m : MethodFact) : ofJson? m.toJson = some m := by
  have hdependencies := Json.asList?_map Usage.ofJson?_toJson m.dependencies
  unfold toJson ofJson? Json.textsMember
  split
  · next htables =>
      rw [Record.ofJson?_record (by simp) (by simp)]
      simp [Record.required?, Record.optional?, Record.withDefault?, Record.find?,
        Dictionary.find?, hdependencies, ← htables]
  · rw [Record.ofJson?_record (by simp) (by simp)]
    simp [Record.required?, Record.optional?, Record.withDefault?, Record.find?,
      Dictionary.find?, hdependencies]

theorem shallow_toJson (m : MethodFact) : Shallow 3 m.toJson := by
  have htables (e) (he : e ∈ Json.textsMember "tables" m.tables) : Shallow 2 e.2 :=
    (Shallow.textsMember "tables" m.tables e he).mono (by decide)
  have htexts (xs) : Shallow 2 (.ofTexts xs) := (Shallow.ofTexts xs).mono (by decide)
  have hdependencies := Shallow.map Usage.shallow_toJson m.dependencies
  refine .record ?_
  simp only [List.forall_mem_append, List.forall_mem_cons]
  exact ⟨⟨⟨.text 2 _, .text 2 _, htexts _, hdependencies, htexts _, List.forall_mem_nil _⟩,
    htables⟩, .text 2 _, .ofText 2 _, .ofText 2 _, List.forall_mem_nil _⟩

end MethodFact

namespace ClassEntry

@[simp] theorem ofJson?_toJson (c : ClassEntry) : ofJson? c.toJson = some c := by
  have hmethods := Json.asList?_map MethodFact.ofJson?_toJson c.methods
  unfold toJson ofJson? Json.textsMember
  split
  · next htables =>
      rw [Record.ofJson?_record (by simp) (by simp)]
      simp [Record.required?, Record.optional?, Record.withDefault?, Record.find?,
        Dictionary.find?, Json.asPath?, hmethods, ← htables]
  · rw [Record.ofJson?_record (by simp) (by simp)]
    simp [Record.required?, Record.optional?, Record.withDefault?, Record.find?,
      Dictionary.find?, Json.asPath?, hmethods]

theorem shallow_toJson (c : ClassEntry) : Shallow 5 c.toJson := by
  have htables (e) (he : e ∈ Json.textsMember "tables" c.tables) : Shallow 4 e.2 :=
    (Shallow.textsMember "tables" c.tables e he).mono (by decide)
  have hmethods := Shallow.map MethodFact.shallow_toJson c.methods
  refine .record ?_
  simp only [List.forall_mem_append, List.forall_mem_cons]
  exact ⟨⟨.text 4 _, .ofText 4 _, hmethods, List.forall_mem_nil _⟩, htables⟩

end ClassEntry

namespace Route

@[simp] theorem ofJson?_toJson (r : Route) : ofJson? r.toJson = some r := by
  unfold toJson ofJson?
  rw [Record.ofJson?_record (by simp) (by simp)]
  simp [Record.required?, Record.find?, Dictionary.find?]

theorem shallow_toJson (r : Route) : Shallow 1 r.toJson := by
  refine .record ?_
  simp only [List.forall_mem_cons]
  exact ⟨.text 0 _, .text 0 _, .text 0 _, .text 0 _, List.forall_mem_nil _⟩

end Route

/-! ## Inventories -/

namespace Inventory

@[simp] theorem fileOfJson?_fileToJson (p : Path) : fileOfJson? (fileToJson p) = some p := by
  unfold fileToJson fileOfJson?
  rw [Record.ofJson?_record (by simp) (by simp)]
  simp [Record.required?, Record.find?, Dictionary.find?, Json.asPath?]

theorem shallow_fileToJson (p : Path) : Shallow 1 (fileToJson p) :=
  .record (List.forall_mem_singleton.2 (.text 0 _))

/-- Errors are read back in their order, since no two of them are under spellings of one place. -/
@[simp] theorem errorsOfJson?_errorsToJson (errors : PathMap String) :
    errorsOfJson? (errorsToJson errors) = some errors := by
  have hmembers := Json.asMembers?_record Json.asText?_text
    (errors.entries.map fun e => (e.1.text, e.2))
  rw [List.map_map] at hmembers
  have hpaths : (errors.entries.map fun e => (e.1.text, e.2)).map
      (fun e => ((⟨e.1⟩ : Path), e.2)) = errors.entries := by
    rw [List.map_map]
    exact List.map_id _
  have hread : errorsOfJson? (errorsToJson errors) = some (PathMap.ofList errors.entries) := by
    unfold errorsOfJson? errorsToJson
    exact (congrArg _ hmembers).trans (congrArg (some <| PathMap.ofList ·) hpaths)
  rw [hread, PathMap.ofList_entries]

theorem shallow_errorsToJson (errors : PathMap String) : Shallow 1 (errorsToJson errors) := by
  refine .record fun m hm => ?_
  obtain ⟨e, -, rfl⟩ := List.mem_map.1 hm
  exact .text 0 _

@[simp] theorem ofJson?_toJson (r : Inventory) : ofJson? r.toJson = some r := by
  have hclasses := Json.asDictionary?_ofDictionary ClassEntry.ofJson?_toJson
  have hfiles := Json.asDictionary?_ofDictionary fileOfJson?_fileToJson
  have hroutes := Json.asList?_map Route.ofJson?_toJson r.routes
  unfold toJson ofJson?
  split
  · next hempty =>
      rw [Record.ofJson?_record (by simp) (by simp)]
      have hnone : PathMap.empty = r.errors := PathMap.ext (List.isEmpty_iff.1 hempty).symm
      simp [Record.required?, Record.withDefault?, Record.find?, Dictionary.find?, hclasses, hfiles,
        hroutes, hnone]
  · rw [Record.ofJson?_record (by simp) (by simp)]
    simp [Record.required?, Record.withDefault?, Record.find?, Dictionary.find?, hclasses, hfiles,
      hroutes]

theorem shallow_toJson (r : Inventory) : Shallow 7 r.toJson := by
  have hclasses (d) : Shallow 6 (Json.ofDictionary ClassEntry.toJson d) :=
    .ofDictionary ClassEntry.shallow_toJson d
  have hfiles (d) : Shallow 6 (Json.ofDictionary fileToJson d) :=
    (Shallow.ofDictionary shallow_fileToJson d).mono (by decide)
  have hroutes : Shallow 6 (.array (r.routes.map Route.toJson)) :=
    (Shallow.map Route.shallow_toJson r.routes).mono (by decide)
  have herrors : Shallow 6 (errorsToJson r.errors) :=
    (shallow_errorsToJson r.errors).mono (by decide)
  refine .record ?_
  simp only [List.forall_mem_append, List.forall_mem_cons]
  refine ⟨⟨hclasses _, hclasses _, hroutes, hfiles _, hfiles _, List.forall_mem_nil _⟩, ?_⟩
  split
  · exact List.forall_mem_nil _
  · exact List.forall_mem_singleton.2 herrors

end Inventory

/-! ## Sections -/

namespace Section

variable {α : Type} {valueToJson : α → Json} {read? : Json → Option α} {n : Nat}

theorem shallow_toJson (h : ∀ x, Shallow n (valueToJson x)) (s : Section α) :
    Shallow (n + 1) (s.toJson valueToJson) := by
  cases s with
  | failed flag reason =>
      refine .record ?_
      simp only [List.forall_mem_cons]
      exact ⟨.bool n _, .text n _, List.forall_mem_nil _⟩
  | completed value => exact .record (List.forall_mem_singleton.2 (h value))

variable (valueToJson) in
theorem failedOfJson?_failed (flag : Bool) (reason : String) :
    failedOfJson? ((failed flag reason : Section α).toJson valueToJson) =
      some (failed flag reason : Section α) := by
  unfold toJson failedOfJson?
  rw [Record.ofJson?_record (by simp) (by simp)]
  simp [Record.required?, Record.find?, Dictionary.find?]

/-- A completed section has no reason, so that it is not taken for a failed one. -/
theorem failedOfJson?_completed (value : α) :
    (failedOfJson? ((completed value).toJson valueToJson) : Option (Section α)) = none := by
  unfold toJson failedOfJson?
  rw [Record.ofJson?_record (by simp) (by simp)]
  simp [Record.required?, Record.find?, Dictionary.find?]

theorem ofJson?_toJson (hshallow : ∀ x, Shallow n (valueToJson x))
    (hread : ∀ x, read? (valueToJson x) = some x) {outer : Nat}
    (houter : n + 1 + outer ≤ maxDepth) (s : Section α) :
    ofJson? outer read? (s.toJson valueToJson) = some s := by
  have hs := shallow_toJson hshallow s
  have hdepth := hs.depth_le
  have hfits : (s.toJson valueToJson).depth + outer ≤ maxDepth := by omega
  unfold ofJson?
  rw [if_pos (by simp [hs.isSound_eq, hfits])]
  cases s with
  | failed flag reason =>
      rw [failedOfJson?_failed, Option.some_or]
  | completed value =>
      rw [failedOfJson?_completed, Option.none_or]
      unfold toJson completedOfJson?
      rw [Record.ofJson?_record (by simp) (by simp)]
      simp [Record.required?, Record.find?, Dictionary.find?, hread]

theorem nullable?_toJson (hshallow : ∀ x, Shallow n (valueToJson x))
    (hread : ∀ x, read? (valueToJson x) = some x) {outer : Nat}
    (houter : n + 1 + outer ≤ maxDepth) (s : Section α) :
    Record.nullable? (ofJson? outer read?) (s.toJson valueToJson) = some (some s) := by
  have hne : s.toJson valueToJson ≠ .null := by
    cases s <;> exact Json.noConfusion
  rw [Record.nullable?_of_ne hne, ofJson?_toJson hshallow hread houter s, Option.map_some]

end Section

/-! ## Migrations and their outcomes -/

namespace Migration

variable (m : Migration)

theorem shallow_toJson : Shallow 9 m.toJson := by
  refine .record fun member hmember => ?_
  rcases List.mem_append.1 hmember with hmember | hmember
  · obtain ⟨s, -, rfl⟩ := Option.map_eq_some_iff.1 (Option.mem_toList.1 hmember)
    exact Section.shallow_toJson Inventory.shallow_toJson s
  · obtain ⟨s, -, rfl⟩ := Option.map_eq_some_iff.1 (Option.mem_toList.1 hmember)
    exact (Section.shallow_toJson (Shallow.bool 0) s).mono (by decide)

theorem ofJson?_toJson {outer : Nat} (h : outer ≤ 1) : ofJson? outer m.toJson = some m := by
  have hdepth : 7 + 1 + (outer + 1) ≤ Section.maxDepth := by
    unfold Section.maxDepth
    omega
  have hanalysis := Section.nullable?_toJson Inventory.shallow_toJson Inventory.ofJson?_toJson
    hdepth
  have hconversion := Section.nullable?_toJson (Shallow.bool 7) Json.asBool?_bool hdepth
  obtain ⟨analysis, conversion⟩ := m
  unfold toJson ofJson?
  cases analysis <;> cases conversion
  all_goals
    rw [Record.ofJson?_record (by simp) (by simp)]
    simp [Record.withDefault?, Record.find?, Dictionary.find?, hanalysis, hconversion]

end Migration

namespace Outcome

theorem shallow_toJson (o : Outcome) : Shallow 10 o.toJson := by
  refine .record ?_
  simp only [List.forall_mem_append, List.forall_mem_cons]
  refine ⟨⟨.bool 9 _, .text 9 _, .text 9 _, List.forall_mem_nil _⟩, ?_⟩
  intro member hmember
  obtain ⟨m, -, rfl⟩ := Option.map_eq_some_iff.1 (Option.mem_toList.1 hmember)
  exact m.shallow_toJson

theorem ofJson?_toJson (o : Outcome) : ofJson? o.toJson = some o := by
  have hreport (m : Migration) :
      Record.nullable? (Migration.ofJson? 1) m.toJson = some (some m) := by
    rw [Record.nullable?_of_ne Json.noConfusion, m.ofJson?_toJson (by decide), Option.map_some]
  obtain ⟨success, message, generation, report⟩ := o
  unfold toJson ofJson?
  cases report
  all_goals
    rw [Record.ofJson?_record (by simp) (by simp)]
    simp [Record.required?, Record.withDefault?, Record.find?, Dictionary.find?, hreport]

end Outcome

/-! ## Texts -/

/-- The spelling of a value, over several lines or without blanks. -/
def Json.spell (lines : Bool) (j : Json) : String :=
  if lines then j.pretty else j.compact

/-- What is read from the spelling of a report is the report, and is spelled the same again. -/
def Json.ReadsBack {α : Type} (lines : Bool) (toJson : α → Json) (ofJson? : Json → Option α)
    (x : α) : Prop :=
  ∃ y, (ofText? (spell lines (toJson x))).bind ofJson? = some y ∧ y = x ∧
    spell lines (toJson y) = spell lines (toJson x)

theorem Json.Shallow.readsBack {α : Type} {toJson : α → Json} {ofJson? : Json → Option α}
    {x : α} {n : Nat} (h : Shallow n (toJson x)) (hread : ofJson? (toJson x) = some x)
    (lines : Bool) : ReadsBack lines toJson ofJson? x := by
  obtain ⟨hcompact, hpretty⟩ := h.ofText?_spell
  refine ⟨x, ?_, rfl, rfl⟩
  cases lines with
  | false => exact (congrArg (·.bind ofJson?) hcompact).trans hread
  | true => exact (congrArg (·.bind ofJson?) hpretty).trans hread

/-- Every inventory, every migration and every outcome survives both spellings. -/
theorem reports_readBack (lines : Bool) :
    (∀ r, Json.ReadsBack lines Inventory.toJson Inventory.ofJson? r) ∧
      (∀ m, Json.ReadsBack lines Migration.toJson (Migration.ofJson? 0) m) ∧
      ∀ o, Json.ReadsBack lines Outcome.toJson Outcome.ofJson? o :=
  ⟨fun r => r.shallow_toJson.readsBack r.ofJson?_toJson lines,
    fun m => m.shallow_toJson.readsBack (m.ofJson?_toJson (by decide)) lines,
    fun o => o.shallow_toJson.readsBack o.ofJson?_toJson lines⟩

end Resettle
