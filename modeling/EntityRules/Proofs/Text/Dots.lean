import EntityRules.Expr.Lookup

/-!
# Segments of dotted paths

A path is cut at every dot, so a row of segments can be read off its path just if no segment has a
dot of its own.  Empty segments are read off as well.

**Results.**
* `pieces_append_separator`: the pieces before and after one separator.
* `splitAtDots_append`: the segments of two paths that are joined by a dot.
* `splitAtDots_intercalate`: segments without dots are those of the path that joins them.
-/

namespace EntityRules

namespace Text

variable {separator : Char} {piece : List Char}

theorem pieces_of_not_mem (h : separator ∉ piece) : pieces separator piece = [piece] := by
  induction piece with
  | nil => rfl
  | cons c piece ih =>
      obtain ⟨hc, hrest⟩ := not_or.mp (mt List.mem_cons.mpr h)
      rw [pieces, if_neg (Ne.symm hc), ih hrest]

/-- A separator cuts a text in two, whatever stands before it. -/
theorem pieces_append_separator (s rest : List Char) :
    pieces separator (s ++ separator :: rest) = pieces separator s ++ pieces separator rest := by
  induction s with
  | nil => simp [pieces]
  | cons c s ih =>
      by_cases hc : c = separator
      · simp [pieces, hc, ih]
      · -- the character joins the first piece, which is there on both sides
        obtain ⟨first, others, hs⟩ := List.exists_cons_of_ne_nil (pieces_ne_nil separator s)
        simp [pieces, hc, ih, hs]

/-- The first separator ends the first piece. -/
theorem pieces_append (h : separator ∉ piece) (rest : List Char) :
    pieces separator (piece ++ separator :: rest) = piece :: pieces separator rest := by
  rw [pieces_append_separator, pieces_of_not_mem h, List.singleton_append]

theorem pieces_intercalate {segments : List (List Char)} (hne : segments ≠ [])
    (h : ∀ segment ∈ segments, separator ∉ segment) :
    pieces separator ([separator].intercalate segments) = segments := by
  induction segments with
  | nil => exact absurd rfl hne
  | cons segment rest ih =>
      obtain ⟨hsegment, hrest⟩ := List.forall_mem_cons.mp h
      cases rest with
      | nil => rw [List.intercalate_singleton, pieces_of_not_mem hsegment]
      | cons next rest =>
          rw [List.intercalate_cons_cons, List.append_assoc, List.singleton_append,
            pieces_append hsegment, ih (List.cons_ne_nil next rest) hrest]

end Text

/-- Paths that are joined by a dot have the segments of both. -/
theorem splitAtDots_append (path rest : String) :
    splitAtDots (path ++ "." ++ rest) = splitAtDots path ++ splitAtDots rest := by
  have hjoined : (path ++ "." ++ rest).toList = path.toList ++ '.' :: rest.toList := by simp
  rw [splitAtDots, hjoined, Text.pieces_append_separator, List.map_append, ← splitAtDots,
    ← splitAtDots]

/-- Segments without dots are read off the path that joins them by dots. -/
theorem splitAtDots_intercalate {segments : List String} (hne : segments ≠ [])
    (h : ∀ segment ∈ segments, '.' ∉ segment.toList) :
    splitAtDots (".".intercalate segments) = segments := by
  have hpieces : Text.pieces '.' (".".intercalate segments).toList =
      segments.map String.toList := by
    rw [String.toList_intercalate]
    exact Text.pieces_intercalate (mt List.map_eq_nil_iff.mp hne) (List.forall_mem_map.mpr h)
  rw [splitAtDots, hpieces, List.map_map]
  exact List.map_id'' (fun _ => String.ofList_toList) segments

end EntityRules
