/-!
# Cutting at the last separator

What follows the last separator of a list, such as the dot before an extension or the colon before
a column, has no separator in it, and that alone says where the list is cut. The list is that of the
characters of a text or of the octets of a path.

* `cutLast?` : what stands on either side of the last separator;
* `cutLast?_eq_some_iff` : the only way to cut before what has no separator.
-/

namespace Conformance

variable {α : Type} [DecidableEq α]

/-- What stands before the last separator and what after it, if there is one. -/
def cutLast? (separator : α) (cs : List α) : Option (List α × List α) :=
  match cs.reverse.dropWhile (· ≠ separator) with
  | [] => none
  | _ :: before => some (before.reverse, (cs.reverse.takeWhile (· ≠ separator)).reverse)

/-- What has no separator, behind the last one. -/
theorem reverse_append_separator {separator : α} (before : List α) {after : List α}
    (h : separator ∉ after) :
    (before ++ separator :: after).reverse.takeWhile (· ≠ separator) = after.reverse ∧
      (before ++ separator :: after).reverse.dropWhile (· ≠ separator) =
        separator :: before.reverse := by
  have hreverse : (before ++ separator :: after).reverse =
      after.reverse ++ separator :: before.reverse := by
    simp
  have hall : ∀ c ∈ after.reverse, decide (c ≠ separator) = true := by
    intro c hc
    rw [decide_eq_true_eq]
    rintro rfl
    exact h (List.mem_reverse.1 hc)
  rw [hreverse, List.takeWhile_append_of_pos hall, List.dropWhile_append_of_pos hall,
    List.takeWhile_cons_of_neg (by simp), List.dropWhile_cons_of_neg (by simp), List.append_nil]
  exact ⟨rfl, rfl⟩

/-- What stands behind the last separator, and what before it. -/
theorem eq_of_dropWhile {separator : α} {cs before : List α} {c : α}
    (h : cs.reverse.dropWhile (· ≠ separator) = c :: before) :
    cs = before.reverse ++ separator :: (cs.reverse.takeWhile (· ≠ separator)).reverse := by
  have hseparator := List.head?_dropWhile_not (· ≠ separator) cs.reverse
  rw [h] at hseparator
  obtain rfl : c = separator := by simpa using hseparator
  have hsplit : cs.reverse = cs.reverse.takeWhile (· ≠ c) ++ c :: before := by
    rw [← h, List.takeWhile_append_dropWhile]
  have hreverse := congrArg List.reverse hsplit
  rw [List.reverse_reverse] at hreverse
  simpa using hreverse

theorem cutLast?_eq_some_iff {separator : α} {cs before after : List α} :
    cutLast? separator cs = some (before, after) ↔
      cs = before ++ separator :: after ∧ separator ∉ after := by
  unfold cutLast?
  constructor
  · intro h
    split at h
    · cases h
    · next c rest hdrop =>
        cases h
        refine ⟨eq_of_dropWhile hdrop, fun hmem => ?_⟩
        have hkept := List.all_eq_true.1 List.all_takeWhile _ (List.mem_reverse.1 hmem)
        simp at hkept
  · rintro ⟨rfl, hafter⟩
    obtain ⟨htake, hdrop⟩ := reverse_append_separator before hafter
    rw [hdrop, htake]
    simp

end Conformance
