import Conformance.Text.Blank

/-!
# Texts without blanks at their ends

`Trims` says what it is to cut the blank characters off both ends of a text: nothing else is cut
off, and neither end of what is left is blank. There is one text that is left so, and it is what
`trimmed` gives (`trims_iff`).
-/

namespace Conformance

/-- One text is what is left of another without the blank characters at its ends. -/
structure Trims (text left : String) : Prop where
  kept : ∃ lead trail : List Char, text.toList = lead ++ left.toList ++ trail ∧
    ∀ c ∈ lead ++ trail, isBlank c = true
  first : ∀ c, left.toList.head? = some c → isBlank c = false
  last : ∀ c, left.toList.getLast? = some c → isBlank c = false

theorem isBlank_of_mem_takeWhile {cs : List Char} {c : Char} (h : c ∈ cs.takeWhile isBlank) :
    isBlank c = true :=
  List.all_eq_true.1 List.all_takeWhile c h

theorem isBlank_of_head?_dropWhile {cs : List Char} {c : Char}
    (h : (cs.dropWhile isBlank).head? = some c) : isBlank c = false := by
  have hfirst := List.head?_dropWhile_not isBlank cs
  rw [h] at hfirst
  exact hfirst

/-- What is cut off in front, what is left, and what is cut off behind. -/
theorem exists_trimBlanks (cs : List Char) :
    ∃ trail, cs = cs.takeWhile isBlank ++ trimBlanks cs ++ trail ∧
      cs.dropWhile isBlank = trimBlanks cs ++ trail ∧ ∀ c ∈ trail, isBlank c = true := by
  have hrest : cs.dropWhile isBlank =
      trimBlanks cs ++ ((cs.dropWhile isBlank).reverse.takeWhile isBlank).reverse := by
    rw [trimBlanks, ← List.reverse_append, List.takeWhile_append_dropWhile, List.reverse_reverse]
  refine ⟨_, ?_, hrest, fun c hc => isBlank_of_mem_takeWhile (List.mem_reverse.1 hc)⟩
  rw [List.append_assoc, ← hrest, List.takeWhile_append_dropWhile]

theorem trims_trimmed (text : String) : Trims text (trimmed text) := by
  obtain ⟨trail, hwhole, hrest, htrail⟩ := exists_trimBlanks text.toList
  have hleft : (trimmed text).toList = trimBlanks text.toList := String.toList_ofList
  refine ⟨⟨text.toList.takeWhile isBlank, trail, ?_, ?_⟩, ?_, ?_⟩
  · rw [hleft, ← hwhole]
  · intro c hc
    exact (List.mem_append.1 hc).elim isBlank_of_mem_takeWhile (htrail c)
  · -- what is left begins as the text does behind its blanks in front
    intro c hc
    rw [hleft] at hc
    have hfirst : (text.toList.dropWhile isBlank).head? = some c := by
      rw [hrest, List.head?_append, hc, Option.some_or]
    exact isBlank_of_head?_dropWhile hfirst
  · intro c hc
    rw [hleft, trimBlanks, List.getLast?_reverse] at hc
    exact isBlank_of_head?_dropWhile hc

/-- What is blank in front of a text that does not begin with a blank. -/
theorem dropWhile_append_of_head? {lead rest : List Char} (hlead : ∀ c ∈ lead, isBlank c = true)
    (hrest : ∀ c, rest.head? = some c → isBlank c = false) :
    (lead ++ rest).dropWhile isBlank = rest := by
  rw [List.dropWhile_append_of_pos hlead]
  cases rest with
  | nil => rfl
  | cons c rest => rw [List.dropWhile_cons_of_neg (by simp [hrest c rfl])]

theorem Trims.eq_trimmed {text left : String} (h : Trims text left) : left = trimmed text := by
  obtain ⟨⟨lead, trail, hwhole, hblank⟩, hfirst, hlast⟩ := h
  refine String.toList_inj.1 (Eq.trans ?_ String.toList_ofList.symm)
  cases hleft : left.toList with
  | nil =>
      have hall : (lead ++ trail ++ []).dropWhile isBlank = [] :=
        dropWhile_append_of_head? hblank fun c h => nomatch h
      rw [hleft, List.append_nil, ← List.append_nil (lead ++ trail)] at hwhole
      rw [hwhole, trimBlanks, hall]
      rfl
  | cons c cs =>
      have hfront : (lead ++ (left.toList ++ trail)).dropWhile isBlank = left.toList ++ trail := by
        refine dropWhile_append_of_head? (fun c hc => hblank c (List.mem_append_left _ hc)) ?_
        intro c' hc'
        rw [hleft, List.cons_append, List.head?_cons] at hc'
        exact hfirst c' (by rw [hleft, List.head?_cons, hc'])
      have hback : (trail.reverse ++ left.toList.reverse).dropWhile isBlank =
          left.toList.reverse := by
        refine dropWhile_append_of_head?
          (fun c hc => hblank c (List.mem_append_right _ (List.mem_reverse.1 hc))) ?_
        intro c' hc'
        exact hlast c' (by rw [← List.head?_reverse, hc'])
      rw [hwhole, List.append_assoc, trimBlanks, hfront, List.reverse_append, hback,
        List.reverse_reverse, hleft]

theorem trims_iff {text left : String} : Trims text left ↔ left = trimmed text :=
  ⟨Trims.eq_trimmed, fun h => h ▸ trims_trimmed text⟩

end Conformance
