import Resettle.Path
import Resettle.Proofs.Text.Pieces

/-!
# Segments of joined paths

A name that is joined to a path becomes the last segment of the path.
-/

namespace Resettle.Path

theorem segments_join {name : String} (h : '/' ∉ name.toList) (base : Path) :
    ∃ front, (base.join name).segments = front ++ [name] := by
  have hname : (Text.split '/' name.toList).map String.ofList = [name] := by
    rw [Text.split_of_notMem h, List.map_singleton, String.ofList_toList]
  have hjoined : ∀ front : String, ∃ names,
      (Text.split '/' (front ++ "/" ++ name).toList).map String.ofList = names ++ [name] := by
    intro front
    have hcut : (front ++ "/" ++ name).toList = front.toList ++ '/' :: name.toList := by simp
    rw [hcut, Text.split_append_cons, List.map_append, hname]
    exact ⟨_, rfl⟩
  have hhead : name.toList.head? ≠ some '/' := fun hfirst => h (List.mem_of_head? hfirst)
  unfold join segments
  rw [if_neg hhead]
  split
  · next hbase =>
      rcases hbase with hempty | hslash
      · rw [hempty, String.empty_append]
        exact ⟨[], hname⟩
      · obtain ⟨front, hfront⟩ := List.getLast?_eq_some_iff.1 hslash
        have hcut : base.text = String.ofList front ++ "/" := by
          rw [← String.toList_inj]
          simpa using hfront
        rw [hcut]
        exact hjoined _
  · exact hjoined _

theorem segments_withFileName {name : String} (h : '/' ∉ name.toList) (p : Path) :
    ∃ front, (p.withFileName name).segments = front ++ [name] := by
  unfold withFileName
  split
  · exact segments_join h _
  · exact segments_join h p

theorem sep_notMem_of_mem_segments {p : Path} {s : String} (h : s ∈ p.segments) :
    '/' ∉ s.toList := by
  obtain ⟨piece, hpiece, rfl⟩ := List.mem_map.1 h
  rw [String.toList_ofList]
  exact Text.sep_notMem_of_mem_split hpiece

theorem mem_segments_of_mem_place {p : Path} {s : String} (h : s ∈ p.place) (hroot : s ≠ "/")
    (hdot : s ≠ ".") : s ∈ p.segments := by
  unfold place at h
  dsimp only at h
  split at h
  · exact (List.mem_filter.1 ((List.mem_cons.1 h).resolve_left hroot)).1
  · split at h
    · exact (List.mem_filter.1 ((List.mem_cons.1 h).resolve_left hdot)).1
    · exact (List.mem_filter.1 h).1

theorem sep_notMem_fileName (p : Path) : '/' ∉ ((p.fileName?).getD "").toList := by
  cases hname : p.fileName? with
  | none => exact List.not_mem_nil
  | some s =>
      obtain ⟨hlast, hs⟩ := Option.filter_eq_some_iff.1 hname
      simp only [Bool.and_eq_true, decide_eq_true_eq] at hs
      exact sep_notMem_of_mem_segments
        (mem_segments_of_mem_place (List.mem_of_getLast? hlast) hs.1.1 hs.1.2)

end Resettle.Path
