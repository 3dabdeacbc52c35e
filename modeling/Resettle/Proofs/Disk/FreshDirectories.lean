import Resettle.Proofs.Disk.FreePaths
import Resettle.Proofs.Disk.NewDirectories

/-!
# Fresh directories

The search for a free path tries the requested one and then its numbered names in turn, and ends
with the first that names nothing, as long as it does not run out of numbers.  The directory that is
made there is empty, and everything that was there stays.
-/

namespace Resettle

namespace Path

/-! ## Small numbers -/

variable {p : Path} {k : Nat}

theorem ofNat_lt_maxValue_iff (hk : k < 2147483648) :
    Int32.ofNat k < Int32.maxValue ↔ k ≤ 2147483646 := by
  rw [Int32.lt_iff_toInt_lt, Int32.toInt_ofNat_of_lt hk, Int32.toInt_maxValue]
  omega

theorem toString_ofNat (hk : k < 2147483648) : toString (Int32.ofNat k) = toString k := by
  change (Int32.ofNat k).toInt.repr = k.repr
  rw [Int32.toInt_ofNat_of_lt hk]
  rfl

end Path

namespace Disk

variable {d : Disk} {requested p output : Path} {n : Int32} {i k : Nat}

/-! ## The search -/

/-- The search for a free path: it ends with a path that is free, and if the path is taken it goes
on with the number that comes next.  A number is tried only if another one follows it. -/
inductive Finds (d : Disk) (requested : Path) : Int32 → Path → Path → Prop where
  | free {n : Int32} {p : Path} (hfree : d.has p = false) : Finds d requested n p p
  | taken {n : Int32} {p output : Path} (htaken : d.has p = true) (hnext : n < Int32.maxValue)
      (more : Finds d requested (n + 1) (requested.numbered n) output) :
      Finds d requested n p output

theorem Finds.unique {other : Path} (h : d.Finds requested n p output)
    (h' : d.Finds requested n p other) : output = other := by
  induction h with
  | free hfree =>
      cases h' with
      | free => rfl
      | taken htaken => exact nomatch hfree.symm.trans htaken
  | taken htaken _ _ ih =>
      cases h' with
      | free hfree => exact nomatch hfree.symm.trans htaken
      | taken _ _ more => exact ih more

theorem Finds.of_taken (hik : i ≤ k) (hk : k < 2147483646)
    (htaken : ∀ j, i ≤ j → j < k → d.has (requested.attempt j) = true)
    (hfree : d.has (requested.attempt k) = false) (hp : d.has p = true) :
    d.Finds requested (Int32.ofNat (i + 1)) p (requested.attempt k) := by
  -- back from the number that is free, with any path that is tried in front of it
  induction hik using Nat.decreasingInduction generalizing p with
  | self => exact .taken hp ((Path.ofNat_lt_maxValue_iff (by omega)).2 (by omega)) (.free hfree)
  | of_succ i hi ih =>
      have hnext : Int32.ofNat (i + 1 + 1) = Int32.ofNat (i + 1) + 1 := Int32.ofNat_add _ _
      refine .taken hp ((Path.ofNat_lt_maxValue_iff (by omega)).2 (by omega)) ?_
      rw [← hnext]
      exact ih (fun j hj => htaken j (by omega)) (htaken i le_rfl hi)

/-- A path on which the search ends, or one that is tried on the way, is free. -/
theorem Finds.exists_free (h : d.Finds requested n p output) (hn : n = Int32.ofNat (i + 1))
    (hi : i ≤ 2147483646) :
    d.has p = false ∨ ∃ k < 2147483646, d.has (requested.attempt k) = false := by
  induction h generalizing i with
  | free hfree => exact .inl hfree
  | taken htaken hnext more ih =>
      subst hn
      have hsmall := (Path.ofNat_lt_maxValue_iff (by omega)).1 hnext
      obtain hfree | hlater := ih (Int32.ofNat_add (i + 1) 1).symm (by omega)
      · exact .inr ⟨i, by omega, hfree⟩
      · exact .inr hlater

/-- A free path is found as long as there is one among those that are tried. -/
theorem exists_freshPath? (hroom : d.has requested = false ∨
      ∃ k < 2147483646, d.has (requested.attempt k) = false) :
    (d.has requested = false ∧ d.freshPath? requested = some requested) ∨
      d.has requested = true ∧ ∃ k < 2147483646,
        d.freshPath? requested = some (requested.attempt k) ∧
          d.has (requested.attempt k) = false ∧ ∀ j < k, d.has (requested.attempt j) = true := by
  cases hfresh : d.freshPath? requested with
  | none =>
      obtain ⟨hrequested, hnumbered⟩ := freshPath?_eq_none_iff.1 hfresh
      obtain hfree | ⟨k, -, hfree⟩ := hroom
      · exact nomatch hfree.symm.trans hrequested
      · exact nomatch hfree.symm.trans (hnumbered _)
  | some p =>
      obtain ⟨hfree, rfl | ⟨htaken, k, rfl, hbefore⟩⟩ := of_freshPath?_eq_some hfresh
      · exact .inl ⟨hfree, rfl⟩
      · refine .inr ⟨htaken, k, ?_, rfl, hfree, hbefore⟩
        obtain hrequested | ⟨j, hj, hfree'⟩ := hroom
        · exact nomatch hrequested.symm.trans htaken
        · by_contra hk
          exact nomatch hfree'.symm.trans (hbefore j (by omega))

/-! ## The path that is chosen -/

/-- The requested path with a number behind its last name. -/
def suffixed (requested : Path) (name : String) (k : Nat) : Path :=
  requested.withFileName (name ++ "_" ++ toString k)

/-- The requested path if that is free, and else the one with the least number that is. -/
inductive IsChosen (d : Disk) (requested : Path) : Path → Prop where
  | requested (hfree : d.has requested = false) : IsChosen d requested requested
  | suffixed {name : String} {k : Nat} (htaken : d.has requested = true)
      (hname : requested.names.getLast? = some name) (hk : 0 < k)
      (hnames : (suffixed requested name k).names =
        requested.names.dropLast ++ [name ++ "_" ++ toString k])
      (hfree : d.has (suffixed requested name k) = false)
      (hleast : ∀ j, 0 < j → j < k → d.has (suffixed requested name j) = true) :
      IsChosen d requested (suffixed requested name k)

/-- The requested path is free, or one of its names with `_1` to `_2147483646`. -/
def HasRoom (d : Disk) (requested : Path) : Prop :=
  d.has requested = false ∨ ∃ name k, requested.names.getLast? = some name ∧
    0 < k ∧ k ≤ 2147483646 ∧ d.has (suffixed requested name k) = false

theorem IsChosen.unique {other : Path} (h : d.IsChosen requested output)
    (h' : d.IsChosen requested other) : output = other := by
  cases h with
  | requested hfree =>
      cases h' with
      | requested => rfl
      | suffixed htaken => exact nomatch hfree.symm.trans htaken
  | @suffixed name k htaken hname hk hnames hfree hleast =>
      cases h' with
      | requested hfree => exact nomatch hfree.symm.trans htaken
      | @suffixed name' k' _ hname' hk' _ hfree' hleast' =>
          obtain rfl := Option.some.inj (hname.symm.trans hname')
          obtain hlt | rfl | hlt := Nat.lt_trichotomy k k'
          · exact nomatch hfree.symm.trans (hleast' k hk hlt)
          · rfl
          · exact nomatch hfree'.symm.trans (hleast k' hk' hlt)

theorem attempt_eq_suffixed {name : String} (hname : requested.fileName? = some name)
    (hk : k < 2147483647) : requested.attempt k = suffixed requested name (k + 1) := by
  rw [Path.attempt, Path.numbered, Path.numberedName, hname, Path.toString_ofNat (by omega)]
  rfl

theorem names_numbered (hnames : requested.names ≠ []) (hup : ".." ∉ requested.names) (n : Int32) :
    (requested.numbered n).names = requested.names.dropLast ++ [requested.numberedName n] := by
  obtain ⟨hne, hdots, hslash⟩ := requested.isName_numberedName n
  rw [isDots, Bool.or_eq_false_iff, decide_eq_false_iff_not] at hdots
  exact (Path.names_withFileName hnames hup hslash hne hdots.1).1

theorem hasRoom_iff (hnames : requested.names ≠ []) (hup : ".." ∉ requested.names) :
    d.HasRoom requested ↔
      d.has requested = false ∨ ∃ k < 2147483646, d.has (requested.attempt k) = false := by
  obtain ⟨name, -, hlast, hname, -⟩ := Path.exists_fileName hnames hup
  refine or_congr_right ⟨?_, fun ⟨k, hk, hfree⟩ => ?_⟩
  · rintro ⟨other, k, hother, hpositive, hk, hfree⟩
    obtain rfl := Option.some.inj (hlast.symm.trans hother)
    obtain ⟨k, rfl⟩ := Nat.exists_eq_succ_of_ne_zero hpositive.ne'
    rw [← attempt_eq_suffixed hname (by omega)] at hfree
    exact ⟨k, hk, hfree⟩
  · rw [attempt_eq_suffixed hname (by omega)] at hfree
    exact ⟨name, k + 1, hlast, k.succ_pos, hk, hfree⟩

theorem hasRoom_iff_exists_finds (hnames : requested.names ≠ []) (hup : ".." ∉ requested.names) :
    d.HasRoom requested ↔ ∃ p, d.Finds requested 1 requested p := by
  rw [hasRoom_iff hnames hup]
  refine ⟨fun hroom => ?_, fun ⟨p, hfinds⟩ => hfinds.exists_free rfl (Nat.zero_le _)⟩
  obtain ⟨hfree, -⟩ | ⟨htaken, k, hk, -, hfree, hbefore⟩ := exists_freshPath? hroom
  · exact ⟨requested, .free hfree⟩
  · exact ⟨_, .of_taken (Nat.zero_le k) hk (fun j _ => hbefore j) hfree htaken⟩

theorem Finds.freshPath?_eq_some (h : d.Finds requested 1 requested p) :
    d.freshPath? requested = some p := by
  obtain ⟨hfree, heq⟩ | ⟨htaken, k, hk, heq, hfree, hbefore⟩ :=
    exists_freshPath? (h.exists_free rfl (Nat.zero_le _))
  · rw [heq, (Finds.free hfree).unique h]
  · rw [heq, (Finds.of_taken (Nat.zero_le k) hk (fun j _ => hbefore j) hfree htaken).unique h]

theorem isChosen_of_freshPath? (hnames : requested.names ≠ []) (hup : ".." ∉ requested.names)
    (hroom : d.HasRoom requested) (h : d.freshPath? requested = some p) :
    d.IsChosen requested p := by
  obtain ⟨name, -, hlast, hname, -⟩ := Path.exists_fileName hnames hup
  obtain ⟨hfree, heq⟩ | ⟨htaken, k, hk, heq, hfree, hbefore⟩ :=
    exists_freshPath? ((hasRoom_iff hnames hup).1 hroom)
  · obtain rfl := Option.some.inj (heq.symm.trans h)
    exact .requested hfree
  · obtain rfl := Option.some.inj (heq.symm.trans h)
    have hattempt := names_numbered hnames hup (Int32.ofNat (k + 1))
    rw [Path.numberedName, hname, Path.toString_ofNat (by omega)] at hattempt
    rw [attempt_eq_suffixed hname (by omega)] at hfree ⊢
    refine .suffixed htaken hlast k.succ_pos ?_ hfree fun j hj hjk => ?_
    · rw [← attempt_eq_suffixed hname (by omega)]
      exact hattempt
    · obtain ⟨j, rfl⟩ := Nat.exists_eq_succ_of_ne_zero hj.ne'
      rw [← attempt_eq_suffixed hname (by omega)]
      exact hbefore j (Nat.lt_of_succ_lt_succ hjk)

/-- The path of a new directory is as plain as the requested one. -/
theorem names_of_freshPath? (hnames : requested.names ≠ []) (hup : ".." ∉ requested.names)
    (h : d.freshPath? requested = some p) : p.names ≠ [] ∧ ".." ∉ p.names := by
  obtain ⟨-, rfl | ⟨-, k, rfl, -⟩⟩ := of_freshPath?_eq_some h
  · exact ⟨hnames, hup⟩
  · have hdots := (requested.isName_numberedName (Int32.ofNat (k + 1))).2.1
    rw [isDots, Bool.or_eq_false_iff, decide_eq_false_iff_not, decide_eq_false_iff_not] at hdots
    rw [Path.attempt, names_numbered hnames hup]
    refine ⟨by simp, fun hmem => ?_⟩
    rcases List.mem_append.1 hmem with hmem | hmem
    · exact hup (List.mem_of_mem_dropLast hmem)
    · exact hdots.2 (List.mem_singleton.1 hmem).symm

end Disk

/-! ## The action -/

namespace Action

/-- What has changed lies on the way to the path of the new directory. -/
theorem exists_freshPath?_of_entryAt?_ne {requested : Path} {d : Disk} {place : Place}
    (hnames : requested.names ≠ []) (hup : ".." ∉ requested.names)
    (h : ((freshDirectory requested).finish d).2.entryAt? place ≠ d.entryAt? place) :
    ∃ p, d.freshPath? requested = some p ∧ place <+: d.wayTo p := by
  rw [finish_freshDirectory_snd] at h
  split at h
  · exact (h rfl).elim
  · next p hfresh =>
      obtain ⟨-, hup⟩ := Disk.names_of_freshPath? hnames hup hfresh
      exact ⟨p, hfresh, by_contra fun hway => h (Disk.entryAt?_makePath_of_not_prefix hup hway)⟩

/-- On every disk and for every path that has a name and no `..`, a directory that is made was not
there and is empty; however the action ends, everything that was there stays, and nothing comes
elsewhere than on the way to it.  The search ends if and only if there is room, and then the
directory has the requested path or the least free number. -/
theorem freshDirectory_isFresh {requested : Path} (hnames : requested.names ≠ [])
    (hup : ".." ∉ requested.names) (d : Disk) :
    (d.HasRoom requested ↔ ∃ p, d.Finds requested 1 requested p) ∧
    (∀ p, d.Finds requested 1 requested p → d.freshPath? requested = some p) ∧
    ∃ result d', (freshDirectory requested).finish d = (result, d') ∧
      (∀ p e, d.look p = .ok e → d'.look p = .ok e) ∧
      (∀ place e, d.entryAt? place = some e → d'.entryAt? place = some e) ∧
      (∀ place, d'.entryAt? place ≠ d.entryAt? place →
        ∃ p, d.freshPath? requested = some p ∧ place <+: d.wayTo p) ∧
      ∀ output, result = .ok output →
        d.freshPath? requested = some output ∧
          (d.HasRoom requested → d.IsChosen requested output) ∧ d.has output = false ∧
          d'.look output = .ok .directory ∧ d'.names output = [] := by
  refine ⟨Disk.hasRoom_iff_exists_finds hnames hup, fun p h => h.freshPath?_eq_some, ?_⟩
  have hextends := extends_freshDirectory requested d
  cases hfinish : (freshDirectory requested).finish d with
  | mk result d' =>
      rw [hfinish] at hextends
      refine ⟨result, d', rfl, fun p e => hextends.look, hextends.entries, fun place hne =>
        exists_freshPath?_of_entryAt?_ne hnames hup (by rwa [hfinish]), ?_⟩
      rintro output rfl
      obtain ⟨hfresh, hmake⟩ := finish_freshDirectory_eq_ok_iff.1 hfinish
      obtain ⟨hfreshNames, hfreshUp⟩ := Disk.names_of_freshPath? hnames hup hfresh
      have hfree := (Disk.of_freshPath?_eq_some hfresh).1
      exact ⟨hfresh, fun hroom => Disk.isChosen_of_freshPath? hnames hup hroom hfresh, hfree,
        Disk.look_makePath (Path.text_ne_empty hfreshNames) hmake,
        Disk.names_makePath hfreshNames hfreshUp hfree hmake⟩

/-- A disk on which a directory and a file have the first two names that are tried. -/
def twoTaken : Disk :=
  .ofEntries [([], "builds", .directory), (["builds"], "out", .directory),
    (["builds", "out"], "index.php", .file (.text "<?php") false),
    (["builds"], "out_1", .file (.text "notes") false)]

theorem freshDirectory_isFresh_twoTaken :
    (⟨"builds/out"⟩ : Path).names ≠ [] ∧ ".." ∉ (⟨"builds/out"⟩ : Path).names ∧
    twoTaken.HasRoom ⟨"builds/out"⟩ ∧
    (∃ p, twoTaken.Finds ⟨"builds/out"⟩ 1 ⟨"builds/out"⟩ p) ∧
    ∃ d', (freshDirectory ⟨"builds/out"⟩).finish twoTaken = (.ok ⟨"builds/out_2"⟩, d') ∧
      twoTaken.IsChosen ⟨"builds/out"⟩ ⟨"builds/out_2"⟩ ∧
      twoTaken.has ⟨"builds/out_2"⟩ = false ∧
      d'.look ⟨"builds/out_1"⟩ = .ok (.file (.text "notes") false) ∧
      d'.look ⟨"builds/out_2"⟩ = .ok .directory ∧ d'.names ⟨"builds/out_2"⟩ = [] := by
  have hnames : (⟨"builds/out"⟩ : Path).names ≠ [] := by decide +kernel
  have hup : ".." ∉ (⟨"builds/out"⟩ : Path).names := by decide +kernel
  have hroom : twoTaken.HasRoom ⟨"builds/out"⟩ :=
    .inr ⟨"out", 2, by decide +kernel, by decide, by decide, by decide +kernel⟩
  have hnotes : twoTaken.look ⟨"builds/out_1"⟩ = .ok (.file (.text "notes") false) := by
    decide +kernel
  have hsecond : ((freshDirectory ⟨"builds/out"⟩).finish twoTaken).1 = .ok ⟨"builds/out_2"⟩ := by
    decide +kernel
  obtain ⟨hends, -, result, d', hfinish, hlook, -, -, houtput⟩ :=
    freshDirectory_isFresh hnames hup twoTaken
  rw [hfinish] at hsecond
  obtain rfl : result = .ok ⟨"builds/out_2"⟩ := hsecond
  obtain ⟨-, hchosen, hfree, hmade, hempty⟩ := houtput _ rfl
  exact ⟨hnames, hup, hroom, hends.1 hroom, d', hfinish, hchosen hroom, hfree, hlook _ _ hnotes,
    hmade, hempty⟩

end Action

/-! ## A disk without room -/

namespace Disk

variable {names : List String} {name s : String} {count : Nat}

/-- A disk with a directory under each of some names. -/
def ofNames (names : List String) (hnodup : names.Nodup) : Disk where
  entries :=
    { entries := names.map fun name => ([name], Entry.directory)
      nodup := by
        rw [List.map_map]
        exact hnodup.map fun _ _ h => (List.cons.inj h).1 }
  rooted := by
    intro e he
    obtain ⟨name, -, rfl⟩ := List.mem_map.1 he
    exact ⟨[], name, rfl, .inl rfl⟩
  here := []

theorem entryAt?_ofNames_of_mem (hnodup : names.Nodup) (h : name ∈ names) :
    (ofNames names hnodup).entryAt? [name] = some .directory := by
  rw [entryAt?, if_neg (List.cons_ne_nil _ _), Dictionary.get?_eq_some_iff]
  exact List.mem_map_of_mem h

theorem entryAt?_ofNames_of_notMem (hnodup : names.Nodup) (h : name ∉ names) :
    (ofNames names hnodup).entryAt? [name] = none := by
  rw [entryAt?, if_neg (List.cons_ne_nil _ _), Option.eq_none_iff_forall_ne_some]
  intro e he
  obtain ⟨other, hother, heq⟩ := List.mem_map.1 (Dictionary.get?_eq_some_iff _ |>.1 he)
  obtain rfl := (List.cons.inj (congrArg Prod.fst heq)).1
  exact h hother

theorem start_of_name (hname : IsName name) (d : Disk) : d.start ⟨name⟩ = d.here := by
  have hrelative : (⟨name⟩ : Path).isAbsolute = false := by
    rw [← Bool.not_eq_true, Path.isAbsolute_iff]
    rintro ⟨rest, hrest⟩
    exact hname.2.2 (hrest ▸ List.mem_cons_self)
  rw [start, hrelative]
  rfl

theorem segments_of_name (hname : IsName name) : (⟨name⟩ : Path).segments = [name] := by
  rw [Path.segments, Text.split_of_notMem hname.2.2, List.map_singleton, String.ofList_toList]

theorem has_ofNames_iff (hnodup : names.Nodup) (hname : IsName name)
    (hshort : name.utf8ByteSize ≤ maxName) :
    (ofNames names hnodup).has ⟨name⟩ = true ↔ name ∈ names := by
  have hplace : (ofNames names hnodup).placeOf ⟨name⟩ = .ok [name] := by
    rw [placeOf, if_neg hname.1, start_of_name hname, segments_of_name hname]
    exact walk_name rfl hname.1 hname.2.1 hshort []
  rw [has, look, hplace]
  by_cases h : name ∈ names
  · simp [bind, Except.bind, entryAt?_ofNames_of_mem hnodup h, h, Except.toBool]
  · simp [bind, Except.bind, entryAt?_ofNames_of_notMem hnodup h, h, Except.toBool]

theorem makePath_ofNames (hnodup : names.Nodup) (hname : IsName name)
    (hshort : name.utf8ByteSize ≤ maxName) (h : name ∉ names) :
    ∃ d', (ofNames names hnodup).makePath ⟨name⟩ = (.ok (), d') := by
  have hmakes : (ofNames names hnodup).Makes ⟨name⟩ ⟨[], name, false⟩ [] :=
    { nonempty := hname.1
      split := splitLast_of_segments (segments_of_name hname) hname.1
      walk := by rw [start_of_name hname]; rfl
      above := rfl
      short := hshort
      named := hname.2.1
      free := entryAt?_ofNames_of_notMem hnodup h }
  exact ⟨_, makePath_of_makeDirectory hname.1 hmakes.makeDirectory⟩

/-- The name `out` alone and with the numbers up to a last one. -/
def outNames (count : Nat) : List String :=
  "out" :: (List.range count).map fun k => "out_" ++ toString (k + 1)

theorem out_append_ne {other : String} (hother : '_' ∉ other.toList) : "out_" ++ s ≠ other := by
  rintro rfl
  rw [String.toList_append, List.mem_append] at hother
  exact hother (.inl (by decide))

theorem mem_outNames_iff : "out_" ++ s ∈ outNames count ↔ ∃ k < count, s = toString (k + 1) := by
  rw [outNames, List.mem_cons, or_iff_right (out_append_ne (by decide)), List.mem_map]
  simp only [List.mem_range, String.append_right_inj, eq_comm]

theorem nodup_outNames (count : Nat) : (outNames count).Nodup := by
  refine List.nodup_cons.2 ⟨fun hmem => ?_, List.nodup_range.map fun j k h => ?_⟩
  · obtain ⟨k, -, h⟩ := List.mem_map.1 hmem
    exact out_append_ne (by decide) h
  · exact Nat.succ_injective (Path.natRepr_injective ((String.append_right_inj _).1 h))

/-- A disk on which the numbers up to a last one are taken. -/
def crowded (count : Nat) : Disk :=
  ofNames (outNames count) (nodup_outNames count)

theorem isName_out_append (hsep : '/' ∉ s.toList) : IsName ("out_" ++ s) := by
  refine Path.isName_of_mem ?_ ?_
  · rw [String.toList_append]
    exact List.mem_append_left _ (by decide)
  · rw [String.toList_append, List.mem_append, not_or]
    exact ⟨by decide, hsep⟩

theorem utf8ByteSize_le (cs : List Char) : (String.ofList cs).utf8ByteSize ≤ 4 * cs.length := by
  induction cs with
  | nil => decide
  | cons c cs ih =>
      have := c.utf8Size_le_four
      rw [String.ofList_cons, String.utf8ByteSize_append, String.utf8ByteSize_singleton,
        List.length_cons]
      omega

theorem utf8ByteSize_out_append (hshort : s.toList.length ≤ 50) :
    ("out_" ++ s).utf8ByteSize ≤ maxName := by
  have hbytes := utf8ByteSize_le s.toList
  rw [String.ofList_toList] at hbytes
  have hout : "out_".utf8ByteSize = 4 := by decide
  rw [String.utf8ByteSize_append, maxName]
  omega

theorem has_crowded_iff (hsep : '/' ∉ s.toList) (hshort : s.toList.length ≤ 50) :
    (crowded count).has ⟨"out_" ++ s⟩ = true ↔ ∃ k < count, s = toString (k + 1) := by
  rw [crowded, has_ofNames_iff _ (isName_out_append hsep) (utf8ByteSize_out_append hshort),
    mem_outNames_iff]

theorem has_crowded_out (count : Nat) : (crowded count).has ⟨"out"⟩ = true :=
  (has_ofNames_iff _ (by decide) (by decide)).2 List.mem_cons_self

theorem has_crowded_toString {k : Nat} (hk : k < 10000000000) :
    (crowded count).has ⟨"out_" ++ toString k⟩ = true ↔ 0 < k ∧ k ≤ count := by
  have hsep : '/' ∉ (toString k).toList := Path.notMem_repr (by decide) k
  rw [has_crowded_iff hsep]
  · constructor
    · rintro ⟨j, hj, h⟩
      obtain rfl : k = j + 1 := Path.natRepr_injective h
      omega
    · rintro ⟨hpositive, hle⟩
      exact ⟨k - 1, by omega, by rw [Nat.sub_add_cancel hpositive]⟩
  · rw [Nat.toString_eq_repr, Nat.toList_repr,
      Nat.length_toDigits_le_iff (by decide) (by decide)]
    exact hk.trans (by decide)

theorem withFileName_out (name : String) : (⟨"out"⟩ : Path).withFileName name = ⟨name⟩ := by
  have hjoin : (⟨"out"⟩ : Path).withFileName name = (⟨""⟩ : Path).join name := by
    have hname : (⟨"out"⟩ : Path).fileName? = some "out" := by decide +kernel
    have hparent : (⟨"out"⟩ : Path).parent? = some ⟨""⟩ := by decide +kernel
    rw [Path.withFileName, hname, hparent]
  rw [hjoin, Path.join]
  split
  · rfl
  · rw [if_pos (.inl rfl), String.empty_append]

theorem suffixed_out (k : Nat) : suffixed ⟨"out"⟩ "out" k = ⟨"out_" ++ toString k⟩ :=
  withFileName_out _

theorem attempt_out {k : Nat} (hk : k < 2147483647) :
    (⟨"out"⟩ : Path).attempt k = ⟨"out_" ++ toString (k + 1)⟩ := by
  have hname : (⟨"out"⟩ : Path).fileName? = some "out" := by decide +kernel
  rw [attempt_eq_suffixed hname hk, suffixed_out]

theorem has_crowded_least : (crowded count).has ⟨"out_-2147483648"⟩ = false := by
  have hname : "out_-2147483648" = "out_" ++ "-2147483648" := by decide
  rw [← Bool.not_eq_true, hname, has_crowded_iff (by decide) (by decide)]
  intro ⟨k, _, h⟩
  have hdigits : '-' ∉ (toString (k + 1)).toList := Path.notMem_repr (by decide) (k + 1)
  rw [← h] at hdigits
  exact hdigits (by decide)

theorem freshPath?_crowded :
    (crowded 2147483647).freshPath? ⟨"out"⟩ = some ⟨"out_-2147483648"⟩ := by
  refine freshPath?_eq_some_iff.2
    ⟨has_crowded_least, .inr ⟨has_crowded_out _, 2147483647, ?_, fun j hj => ?_⟩⟩
  · -- behind the last number comes the least
    have hnumber : toString (Int32.ofNat (2147483647 + 1)) = "-2147483648" := by decide
    rw [Path.attempt, Path.numbered, withFileName_out, Path.numberedName, hnumber]
    decide +kernel
  · rw [attempt_out hj, has_crowded_toString (by omega)]
    omega

theorem makePath_crowded (count : Nat) :
    ∃ d', (crowded count).makePath ⟨"out_-2147483648"⟩ = (.ok (), d') := by
  refine makePath_ofNames _ (by decide) (by decide) fun hmem => ?_
  have htaken := (has_ofNames_iff (nodup_outNames count) (by decide) (by decide)).2 hmem
  exact nomatch has_crowded_least.symm.trans htaken

theorem isChosen_crowded :
    (crowded 2147483647).IsChosen ⟨"out"⟩ ⟨"out_2147483648"⟩ := by
  have hsuffixed : suffixed ⟨"out"⟩ "out" 2147483648 = ⟨"out_2147483648"⟩ := by decide +kernel
  rw [← hsuffixed]
  refine .suffixed (has_crowded_out _) (by decide +kernel) (by decide) (by decide +kernel) ?_
    fun j hj hjk => ?_
  · rw [suffixed_out, ← Bool.not_eq_true, has_crowded_toString (by decide)]
    omega
  · rw [suffixed_out, has_crowded_toString (by omega)]
    omega

theorem not_hasRoom_crowded : ¬(crowded 2147483647).HasRoom ⟨"out"⟩ := by
  have hlast : (⟨"out"⟩ : Path).names.getLast? = some "out" := by decide +kernel
  rintro (hfree | ⟨name, k, hname, hpositive, hk, hfree⟩)
  · exact nomatch hfree.symm.trans (has_crowded_out _)
  · obtain rfl := Option.some.inj (hlast.symm.trans hname)
    rw [suffixed_out, ← Bool.not_eq_true, has_crowded_toString (by omega)] at hfree
    omega

end Disk

namespace Action

/-- Where all numbers from one to the last are taken, the search goes on with the least one, and the
directory does not have the least number that is free. -/
theorem freshDirectory_crowded :
    (⟨"out"⟩ : Path).names = ["out"] ∧ ".." ∉ (⟨"out"⟩ : Path).names ∧
    (∀ p, ¬(Disk.crowded 2147483647).Finds ⟨"out"⟩ 1 ⟨"out"⟩ p) ∧
    ((freshDirectory ⟨"out"⟩).finish (.crowded 2147483647)).1 = .ok ⟨"out_-2147483648"⟩ ∧
    (Disk.crowded 2147483647).IsChosen ⟨"out"⟩ ⟨"out_2147483648"⟩ ∧
    ¬(Disk.crowded 2147483647).IsChosen ⟨"out"⟩ ⟨"out_-2147483648"⟩ := by
  have hnames : (⟨"out"⟩ : Path).names = ["out"] := by decide +kernel
  have hup : ".." ∉ (⟨"out"⟩ : Path).names := by decide +kernel
  have hchosen := Disk.isChosen_crowded
  refine ⟨hnames, hup, fun p hfinds => Disk.not_hasRoom_crowded ?_, ?_, hchosen, fun h => ?_⟩
  · exact (Disk.hasRoom_iff_exists_finds (by rw [hnames]; decide) hup).2 ⟨p, hfinds⟩
  · obtain ⟨d', hmake⟩ := Disk.makePath_crowded 2147483647
    rw [finish_freshDirectory_eq_ok_iff.2 ⟨Disk.freshPath?_crowded, hmake⟩]
  · exact absurd (hchosen.unique h) (by decide)

end Action

end Resettle
