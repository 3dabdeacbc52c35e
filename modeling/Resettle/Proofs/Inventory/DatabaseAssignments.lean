import Resettle.Proofs.Inventory.DatabaseForms

/-!
# Settings that are replaced

A statement assigns a list to the group, which then holds nothing else, or it assigns one element
of the group.  What is gathered from such statements is all that they assign, the last value of
each key.  So it differs from what the group holds in the end by the stale keys: those that were
assigned before some list that does not have them, and not again behind it.

PHP takes a key that spells an integer for the integer.  No two strings spell the same one, so keys
are strings here.
-/

namespace Resettle

open Php (Node)

/-- A statement that assigns settings, all of a group or one of them. -/
inductive GroupAssignment where
  | whole (entries : List (String × Scalar))
  | single (key : String) (value : Scalar)

namespace GroupAssignment

def entries : GroupAssignment → List (String × Scalar)
  | whole entries => entries
  | single key value => [(key, value)]

def Assigns (a : GroupAssignment) (key : String) : Prop :=
  key ∈ a.entries.map Prod.fst

def run (held : Values) : GroupAssignment → Values
  | whole entries => .ofList entries
  | single key value => held.insert key value

def held (as : List GroupAssignment) : Values :=
  as.foldl run .empty

/-- A key that is assigned before some list that does not have it, and not behind this list. -/
def Stale (as : List GroupAssignment) (key : String) : Prop :=
  ∃ front entries behind, as = front ++ whole entries :: behind ∧ (∃ a ∈ front, a.Assigns key) ∧
    ∀ a ∈ whole entries :: behind, ¬ a.Assigns key

variable {as : List GroupAssignment} {a : GroupAssignment} {key : String}

theorem held_concat (as : List GroupAssignment) (a : GroupAssignment) :
    held (as ++ [a]) = run (held as) a :=
  List.foldl_append

/-! ## Stale keys -/

theorem not_stale_nil (key : String) : ¬ Stale [] key := by
  rintro ⟨front, entries, behind, hcut, -⟩
  cases front <;> cases hcut

theorem not_stale_concat (h : a.Assigns key) : ¬ Stale (as ++ [a]) key := by
  rintro ⟨front, entries, behind, hcut, -, hbehind⟩
  have hlast : a ∈ whole entries :: behind := by
    have hne : whole entries :: behind ≠ [] := List.cons_ne_nil _ _
    have hget := congrArg List.getLast? hcut
    rw [List.getLast?_concat, List.getLast?_append_of_ne_nil _ hne,
      List.getLast?_eq_some_getLast hne] at hget
    exact Option.some.inj hget ▸ List.getLast_mem hne
  exact hbehind a hlast h

theorem Stale.concat (h : Stale as key) (ha : ¬ a.Assigns key) : Stale (as ++ [a]) key := by
  obtain ⟨front, entries, behind, rfl, hfront, hbehind⟩ := h
  refine ⟨front, entries, behind ++ [a], by simp, hfront, fun b hb => ?_⟩
  rw [← List.cons_append, List.mem_append, List.mem_singleton] at hb
  rcases hb with hb | rfl
  · exact hbehind b hb
  · exact ha

theorem stale_concat_whole {entries : List (String × Scalar)}
    (ha : ¬ (whole entries).Assigns key) (h : ∃ b ∈ as, b.Assigns key) :
    Stale (as ++ [whole entries]) key :=
  ⟨as, entries, [], rfl, h, fun _ hb => List.mem_singleton.1 hb ▸ ha⟩

/-- A key stays stale until it is assigned, and only lists make keys stale. -/
theorem Stale.of_concat (h : Stale (as ++ [a]) key) :
    Stale as key ∨ ∃ entries, a = whole entries := by
  obtain ⟨front, entries, behind, hcut, hfront, hbehind⟩ := h
  rcases List.eq_nil_or_concat behind with rfl | ⟨behind, last, rfl⟩
  · exact .inr ⟨entries, (List.cons.inj (List.append_inj' hcut rfl).2).1⟩
  · rw [List.concat_eq_append, ← List.cons_append, ← List.append_assoc] at hcut
    obtain ⟨rfl, -⟩ := List.append_inj' hcut rfl
    refine .inl ⟨front, entries, behind, rfl, hfront, fun b hb => hbehind b ?_⟩
    rw [List.concat_eq_append, ← List.cons_append]
    exact List.mem_append_left _ hb

theorem Stale.exists_assigns (h : Stale as key) : ∃ a ∈ as, a.Assigns key := by
  obtain ⟨front, entries, behind, rfl, ⟨a, ha, hkey⟩, -⟩ := h
  exact ⟨a, List.mem_append_left _ ha, hkey⟩

/-! ## What is gathered, what is held -/

def gathered (as : List GroupAssignment) : Values :=
  .ofList (as.flatMap entries)

theorem gathered_concat (as : List GroupAssignment) (a : GroupAssignment) :
    gathered (as ++ [a]) = (gathered as).insertMany a.entries := by
  rw [gathered, List.flatMap_append, List.flatMap_singleton]
  exact Dictionary.insertMany_append _ _ _

theorem exists_get?_gathered_iff :
    (∃ v, (gathered as).get? key = some v) ↔ ∃ a ∈ as, a.Assigns key := by
  rw [← Option.isSome_iff_exists, ← Dictionary.mem_keys_iff, gathered, Dictionary.ofList,
    Dictionary.mem_keys_insertMany, List.map_flatMap, List.mem_flatMap]
  exact or_iff_left List.not_mem_nil

/-- A key that is assigned has the same value whether all else is kept or not. -/
theorem get?_run_of_assigns (h : a.Assigns key) (d d' : Values) :
    (d.insertMany a.entries).get? key = (run d' a).get? key := by
  rw [Dictionary.get?_insertMany_of_mem h]
  cases a with
  | whole entries => rfl
  | single key' v => exact (Dictionary.get?_insertMany_of_mem h d').symm

theorem get?_run_whole {entries : List (String × Scalar)} (h : ¬ (whole entries).Assigns key)
    (d : Values) : (run d (whole entries)).get? key = none :=
  Dictionary.get?_insertMany_of_notMem h

theorem get?_run_single {key' : String} {v : Scalar} (h : ¬ (single key' v).Assigns key)
    (d : Values) : (run d (single key' v)).get? key = d.get? key :=
  Dictionary.get?_insertMany_of_notMem h

/-- What is gathered agrees with what the group holds but for the stale keys, which the group does
not have. -/
structure Agrees (as : List GroupAssignment) (d : Values) : Prop where
  fresh : ∀ key, ¬ Stale as key → d.get? key = (held as).get? key
  stale : ∀ key, Stale as key → (∃ v, d.get? key = some v) ∧ (held as).get? key = none

theorem agrees_gathered (as : List GroupAssignment) : Agrees as (gathered as) := by
  induction as using List.reverseRecOn with
  | nil => exact ⟨fun key _ => rfl, fun key h => absurd h (not_stale_nil key)⟩
  | append_singleton as a ih =>
      constructor
      · intro key hfresh
        rw [gathered_concat, held_concat]
        by_cases ha : a.Assigns key
        · exact get?_run_of_assigns ha _ _
        rw [Dictionary.get?_insertMany_of_notMem ha]
        cases a with
        | whole entries =>
            -- A key that the list does not have is not held, and if it is fresh, nothing gave it.
            have hnone : ¬ ∃ v, (gathered as).get? key = some v := fun h =>
              hfresh (stale_concat_whole ha (exists_get?_gathered_iff.1 h))
            rw [get?_run_whole ha, Option.eq_none_iff_forall_ne_some]
            exact not_exists.1 hnone
        | single key' v =>
            rw [get?_run_single ha]
            exact ih.fresh key fun h => hfresh (h.concat ha)
      · intro key hstale
        refine ⟨exists_get?_gathered_iff.2 hstale.exists_assigns, ?_⟩
        have ha : ¬ a.Assigns key := fun ha => not_stale_concat ha hstale
        rw [held_concat]
        cases a with
        | whole entries => exact get?_run_whole ha _
        | single key' v =>
            rw [get?_run_single ha]
            rcases hstale.of_concat with hbefore | ⟨_, hwhole⟩
            · exact (ih.stale key hbefore).2
            · cases hwhole

/-! ## Statements -/

def node (variableName groupName : String) : GroupAssignment → Node
  | whole entries =>
      .assign ((Node.var variableName).element groupName)
        (.array (entries.map fun e => (some (.text e.1), .literal e.2)))
  | single key value =>
      .assign (((Node.var variableName).element groupName).element key) (.literal value)

open DatabaseShape (group)

variable {variableName groupName : String}

theorem given_node (a : GroupAssignment) :
    (group variableName groupName).given (a.node variableName groupName) = a.entries := by
  cases a with
  | whole entries =>
      have hlist : (group variableName groupName).Lists entries
          (entries.map fun e => (some (.text e.1), .literal e.2)) := by
        induction entries with
        | nil => exact .nil
        | cons e entries ih => exact .keep rfl ih
      exact hlist.given_group
  | single key value => exact DatabaseShape.given_element key value

/-- From statements that assign settings is gathered what they assign, the last value of each key,
and this is what the group holds in the end but for the stale keys. -/
theorem agrees_collect {trees : List Node}
    (h : Node.flattenList trees = as.map (node variableName groupName)) :
    LastGiven (as.flatMap entries) ((group variableName groupName).collector.collect trees) ∧
      Agrees as ((group variableName groupName).collector.collect trees) := by
  have hcollect : (group variableName groupName).collector.collect trees = gathered as := by
    refine DatabaseShape.collect_eq_ofList ?_
    rw [h, List.flatMap_map]
    exact congrArg (as.flatMap ·) (funext given_node)
  rw [hcollect]
  exact ⟨Dictionary.lastGiven_ofList _, agrees_gathered as⟩

/-- Statements that replace a port and, with a list, a password. -/
def replacing : List GroupAssignment :=
  [.single "password" (.string "old"),
    .whole [("hostname", .string "db.local"), ("port", .int 3306)], .single "port" (.int 3307)]

/-- The statements, one of them in a branch. -/
def replacingTrees : List Node :=
  [node "db" "default" (.single "password" (.string "old")),
    .other [node "db" "default" (.whole [("hostname", .string "db.local"), ("port", .int 3306)])],
    node "db" "default" (.single "port" (.int 3307))]

theorem agrees_collect_replacing :
    Node.flattenList replacingTrees = replacing.map (node "db" "default") ∧
      LastGiven (replacing.flatMap entries)
        ((group "db" "default").collector.collect replacingTrees) ∧
      Agrees replacing ((group "db" "default").collector.collect replacingTrees) :=
  ⟨rfl, agrees_collect rfl⟩

/-- A file that assigns a list behind a password that the list does not have. -/
def replacedPassword : String :=
  "<?php $db['default']['password'] = 'old'; $db['default'] = array('hostname' => 'db.local');"

def replacedPasswordAssignments : List GroupAssignment :=
  [.single "password" (.string "old"), .whole [("hostname", .string "db.local")]]

/-- The password is gathered, though the group does not hold it any more. -/
theorem not_held_replacedPassword :
    ∃ values, (Php.parse? replacedPassword).map (group "db" "default").collector.collect =
        some values ∧
      (group "db" "default").collector.collect
        (replacedPasswordAssignments.map (node "db" "default")) = values ∧
      values.get? "password" = some (.string "old") ∧
      (held replacedPasswordAssignments).get? "password" = none :=
  ⟨gathered replacedPasswordAssignments, by decide +kernel, by decide +kernel, rfl, rfl⟩

end GroupAssignment

end Resettle
