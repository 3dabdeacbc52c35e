import Resettle.Proofs.ConnectionBlock.Again
import Resettle.Proofs.ConnectionBlock.ItemPlaces

/-!
# What a patched block says

A patched block is read as an array: it should say what the block said before with the values of
the updates, and keep the comments.  That is so where every update finds its place in the block.  A
lead in a comment is edited like any other, and then the setting is not made.
-/

namespace Resettle.ConnectionBlock

open Php

variable {us : List (String × Scalar)} {content driver : String}

/-- The block of a driver in a configuration, read as an array. -/
def readBlock? (content driver : String) : Option Reading :=
  (Text.search (header? driver.toList) content.toList).bind fun (_, _, inner) => readArray? inner

theorem readBlock?_of_search {before header inner : List Char}
    (h : Text.search (header? driver.toList) content.toList = some (before, header, inner)) :
    readBlock? content driver = readArray? inner := by
  rw [readBlock?, h]
  rfl

def withSettings (r : Reading) (us : List (String × Scalar)) : Reading :=
  ⟨r.values.insertMany (settings us), r.comments⟩

/-- What the block of the driver says after a patch is what it said before with the settings made:
every other key has its value, and every comment is kept. -/
def MeansUpdated (content driver : String) (us : List (String × Scalar)) : Prop :=
  ∀ r out, readBlock? content driver = some r → patch? content driver us = some out →
    readBlock? out driver = some (withSettings r us)

def Cut.closing (c : Cut) : List Char :=
  (c.footer ++ c.after).tail

/-- Every update has an item of its own to edit or finds a place for one, and no key that is updated
stands in the block twice. -/
structure Places (c : Cut) (us : List (String × Scalar)) : Prop where
  settable : ∀ u ∈ us, Settable u.1 (entryIndent c.body) c.body c.closing
  once : ∀ items, items? (Reader.start.marks c.inner) = some items →
    ∀ u ∈ us, (items.map Prod.fst).count u.1 ≤ 1

theorem inner_eq_of_cut? {content driver : List Char} {c : Cut} (h : cut? content driver = some c) :
    c.inner = c.body ++ '\n' :: c.closing := by
  obtain ⟨-, gap, -, hfooter⟩ := cut?_eq_some h
  rw [Cut.inner, Cut.closing, hfooter, List.append_assoc]
  rfl

/-- Where the updates find their places, the patched block says what it should. -/
theorem meansUpdated_of_places {c : Cut} (hcut : cut? content.toList driver.toList = some c)
    (hdriver : IsWord driver.toList) (hquiet : Quiet us) (hplaces : Places c us) :
    MeansUpdated content driver us := by
  intro r out hread hpatch
  obtain ⟨c', hcut', hout⟩ := patch?_eq_some_iff.1 hpatch
  obtain rfl : c = c' := Option.some.inj (hcut.symm.trans hcut')
  have hheader := (cut?_eq_some_iff.1 hcut).1
  have hinner := inner_eq_of_cut? hcut
  rw [readBlock?_of_search hheader, readArray?, hinner] at hread
  split at hread
  · next hclosed =>
      obtain ⟨items, hitems, rfl⟩ := Option.map_eq_some_iff.1 hread
      obtain ⟨items', hitems', hmany, hcomments, hrun⟩ :=
        hquiet.items?_steps hplaces.settable hitems (hplaces.once items (hinner ▸ hitems))
      have hcontent : out.toList = c.before ++ (c.header ++
          (steps (entryIndent c.body) c.body us ++ '\n' :: c.closing)) := by
        have hfooter : c.footer ++ c.after = '\n' :: c.closing := by
          rw [Cut.inner, List.append_assoc] at hinner
          exact List.append_cancel_left hinner
        rw [hout, ← hfooter]
        simp
      have hfound := search_header? hdriver hheader
        (steps (entryIndent c.body) c.body us ++ '\n' :: c.closing)
      rw [← hcontent] at hfound
      rw [readBlock?_of_search hfound, readArray?, hrun, if_pos hclosed, hitems', hcomments,
        Option.map_some, hmany]
      rfl
  · cases hread

/-- A block with a nested array and a comment on one line, and a comment behind an entry. -/
def mixed : String :=
  "<?php return [\n'mysql' => [\n'a' => [1, 2], # b\n'charset' => 'utf8', // c\n],\n];\n"

/-- One entry is edited and another is added, and the block says what it should. -/
theorem meansUpdated_of_places_mixed :
    ∃ c, cut? mixed.toList "mysql".toList = some c ∧ (readBlock? mixed "mysql").isSome = true ∧
      (patch? mixed "mysql" [("charset", .string "latin1"), ("engine", .null)]).isSome = true ∧
      MeansUpdated mixed "mysql" [("charset", .string "latin1"), ("engine", .null)] := by
  let front := "\n'a' => [1, 2], # b\n".toList
  let lead := "'charset' => ".toList
  let old := "'utf8',".toList
  let comment := " // c".toList
  let c : Cut :=
    { before := "<?php return [\n".toList
      header := "'mysql' => [".toList
      body := front ++ (lead ++ (old ++ comment))
      footer := "\n],".toList
      after := "\n];\n".toList }
  let us := [("charset", Scalar.string "latin1"), ("engine", Scalar.null)]
  have hcut : cut? mixed.toList "mysql".toList = some c := by decide +kernel
  have hquiet : Quiet us := ⟨by decide +kernel, by decide, by decide +kernel⟩
  have hcharset : Found "charset" c.body c.closing front lead old comment :=
    { first :=
        { cut := rfl
          isLead := isLead_newLead "charset".toList
          dark := fun d hd => Option.some.inj hd ▸ (by decide)
          first := by decide +kernel }
      givesUp := ⟨"'utf8'".toList, comment, by decide +kernel, by decide +kernel⟩
      place := ⟨by decide +kernel, by decide +kernel⟩
      item :=
        { keyLead := ⟨by decide +kernel, by decide +kernel, by decide +kernel, by decide⟩
          run := by decide +kernel
          items := ⟨"'utf8'".toList, by decide +kernel⟩
          uncommented := by decide +kernel
          ends := .inl (by decide +kernel) } }
  have hindent : entryIndent c.body = [] := by decide +kernel
  have hengine : Missing "engine" (entryIndent c.body) c.body c.closing :=
    { noLead := by decide +kernel
      place := ⟨by decide +kernel, by decide +kernel⟩
      atEnd := by decide +kernel
      indented := by
        rw [hindent]
        exact List.forall_mem_nil _ }
  have hplaces : Places c us := by
    refine ⟨List.forall_mem_cons.2 ⟨.inl ⟨_, _, _, _, hcharset⟩,
      List.forall_mem_singleton.2 (.inr hengine)⟩, fun items hitems => ?_⟩
    have hread : (items? (Reader.start.marks c.inner)).map (·.map Prod.fst) =
        some ["a", "charset"] := by decide +kernel
    rw [hitems, Option.map_some] at hread
    rw [Option.some.inj hread]
    decide
  exact ⟨c, hcut, by decide +kernel, by decide +kernel,
    meansUpdated_of_places hcut (by decide) hquiet hplaces⟩

/-- A block in which the key of an update stands in a comment only. -/
def commented : String :=
  "<?php return [\n  'mysql' => [\n    'driver' => 'mysql',\n    // 'engine' => null,\n  ],\n];\n"

/-- The comment is edited, and the block says what it said before. -/
theorem not_meansUpdated_commented :
    patch? commented "mysql" [("engine", .string "InnoDB")] = some
        ("<?php return [\n  'mysql' => [\n    'driver' => 'mysql',\n" ++
          "    // 'engine' => 'InnoDB',\n  ],\n];\n") ∧
      ¬ MeansUpdated commented "mysql" [("engine", .string "InnoDB")] := by
  have hpatch : patch? commented "mysql" [("engine", .string "InnoDB")] = some
      ("<?php return [\n  'mysql' => [\n    'driver' => 'mysql',\n" ++
        "    // 'engine' => 'InnoDB',\n  ],\n];\n") := by decide +kernel
  have hread : readBlock? commented "mysql" =
      some ⟨.ofList [("driver", "'mysql'".toList)], ["// 'engine' => null,".toList]⟩ := by
    decide +kernel
  refine ⟨hpatch, fun h => ?_⟩
  have hsame := h _ _ hread hpatch
  exact absurd hsame (by decide +kernel)

end Resettle.ConnectionBlock
