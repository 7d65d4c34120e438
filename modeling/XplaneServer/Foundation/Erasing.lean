/-
  Foundation/Erasing.lean --- erasing from a sequence while walking along it.

  A loop visits the elements of a vector in turn and erases the bad ones.  After an
  erase its iterator is at the next element already, and it is advanced all the
  same: that element is stepped over.  What the walk does to an element depends on
  the bad elements directly before it, and on nothing further away: it is visited
  exactly when their number is even (`visited_eq_filter`).  A single walk so leaves
  at most half of the bad elements (`count_survivors`), and an element that is
  stepped over moves towards the front (`length_survivors`).
-/
import Mathlib.Data.List.Induction

set_option autoImplicit false

namespace XplaneServer.Foundation

section Erasing

variable {α : Type} (bad : α → Bool)

/-- The elements that are visited, where the first one may be stepped over. -/
def visited : Bool → List α → List α
  | _, [] => []
  | true, _ :: xs => visited false xs
  | false, x :: xs => x :: visited (bad x) xs

/-- The elements that are left. -/
def survivors : Bool → List α → List α
  | _, [] => []
  | true, x :: xs => x :: survivors false xs
  | false, x :: xs => if bad x then survivors true xs else x :: survivors false xs

/-- Whether the walk steps over what follows: the last element it visited was
erased, and was the last one. -/
def overruns : Bool → List α → Bool
  | skip, [] => skip
  | true, _ :: xs => overruns false xs
  | false, x :: xs => overruns (bad x) xs

/-- The number of bad elements at the end. -/
def trailing (xs : List α) : Nat := (xs.reverse.takeWhile bad).length

variable {bad}

/-! ## Walking on -/

theorem overruns_append (skip : Bool) (xs ys : List α) :
    overruns bad skip (xs ++ ys) = overruns bad (overruns bad skip xs) ys := by
  induction xs generalizing skip with
  | nil => cases skip <;> rfl
  | cons x xs ih => cases skip <;> exact ih _

theorem visited_append (skip : Bool) (xs ys : List α) :
    visited bad skip (xs ++ ys) =
      visited bad skip xs ++ visited bad (overruns bad skip xs) ys := by
  induction xs generalizing skip with
  | nil => cases skip <;> rfl
  | cons x xs ih =>
      cases skip with
      | true => exact ih false
      | false => exact congrArg (x :: ·) (ih (bad x))

theorem survivors_append (skip : Bool) (xs ys : List α) :
    survivors bad skip (xs ++ ys) =
      survivors bad skip xs ++ survivors bad (overruns bad skip xs) ys := by
  induction xs generalizing skip with
  | nil => cases skip <;> rfl
  | cons x xs ih =>
      cases skip with
      | true => exact congrArg (x :: ·) (ih false)
      | false => cases hx : bad x <;> simp [survivors, overruns, hx, ih]

/-- Only elements of the list are visited. -/
theorem visited_sublist (skip : Bool) (xs : List α) : (visited bad skip xs).Sublist xs := by
  induction xs generalizing skip with
  | nil => cases skip <;> exact List.Sublist.refl []
  | cons x xs ih =>
      cases skip with
      | true => exact (ih false).cons x
      | false => exact (ih (bad x)).cons_cons x

/-- Only elements of the list are left. -/
theorem survivors_sublist (skip : Bool) (xs : List α) : (survivors bad skip xs).Sublist xs := by
  induction xs generalizing skip with
  | nil => cases skip <;> exact List.Sublist.refl []
  | cons x xs ih =>
      cases skip with
      | true => exact (ih false).cons_cons x
      | false =>
          unfold survivors
          split
          · exact (ih true).cons x
          · exact (ih false).cons_cons x

/-- Who is left was not visited, or is not bad. -/
theorem mem_survivors_iff (skip : Bool) {xs : List α} (hnodup : xs.Nodup) {x : α} :
    x ∈ survivors bad skip xs ↔ x ∈ xs ∧ ¬ (x ∈ visited bad skip xs ∧ bad x = true) := by
  induction xs generalizing skip with
  | nil => cases skip <;> simp [survivors]
  | cons y xs ih =>
      rw [List.nodup_cons] at hnodup
      obtain ⟨hnew, hrest⟩ := hnodup
      have hnot : ∀ skip, y ∉ visited bad skip xs := fun skip h =>
        hnew ((visited_sublist skip xs).subset h)
      by_cases hxy : x = y
      · subst hxy
        cases skip with
        | true => simp [survivors, visited, hnot]
        | false =>
            have hgone : x ∉ survivors bad true xs := fun h =>
              hnew ((survivors_sublist true xs).subset h)
            cases hx : bad x <;> simp [survivors, visited, hx, hgone]
      · cases skip with
        | true => simp [survivors, visited, hxy, ih false hrest]
        | false => cases hy : bad y <;> simp [survivors, visited, hy, hxy, ih _ hrest]

/-- The walk asks for the elements of the list only. -/
theorem visited_congr {bad' : α → Bool} (skip : Bool) {xs : List α}
    (h : ∀ x ∈ xs, bad x = bad' x) : visited bad skip xs = visited bad' skip xs := by
  induction xs generalizing skip with
  | nil => cases skip <;> rfl
  | cons x xs ih =>
      have hrest := fun skip => ih skip fun y hy => h y (List.mem_cons_of_mem x hy)
      cases skip with
      | true => exact hrest false
      | false =>
          unfold visited
          rw [hrest, h x List.mem_cons_self]

@[simp] theorem trailing_concat (xs : List α) (x : α) :
    trailing bad (xs ++ [x]) = if bad x then trailing bad xs + 1 else 0 := by
  unfold trailing
  rw [List.reverse_append, List.reverse_singleton, List.singleton_append, List.takeWhile_cons]
  split <;> rfl

theorem trailing_map {β : Type} (f : β → α) (ys : List β) :
    trailing bad (ys.map f) = trailing (fun y => bad (f y)) ys := by
  unfold trailing
  rw [← List.map_reverse, List.takeWhile_map, List.length_map]
  rfl

/-- **The walk has just erased an element exactly after an odd number of bad
ones.** -/
theorem overruns_eq (xs : List α) : overruns bad false xs = !(trailing bad xs % 2 == 0) := by
  induction xs using List.reverseRecOn with
  | nil => rfl
  | append_singleton xs x ih =>
      have hlast : overruns bad false (xs ++ [x]) = (!overruns bad false xs && bad x) := by
        rw [overruns_append]
        cases overruns bad false xs <;> rfl
      rw [hlast, trailing_concat, ih]
      cases bad x with
      | false => simp
      | true =>
          rcases Nat.mod_two_eq_zero_or_one (trailing bad xs) with heven | hodd
          · have hnext : (trailing bad xs + 1) % 2 = 1 := by omega
            simp [heven, hnext]
          · have hnext : (trailing bad xs + 1) % 2 = 0 := by omega
            simp [hodd, hnext]

/-- A walk that meets nothing bad visits everything, and erases nothing. -/
theorem visited_of_sound {xs : List α} (h : ∀ x ∈ visited bad false xs, bad x = false) :
    visited bad false xs = xs ∧ survivors bad false xs = xs := by
  induction xs with
  | nil => exact ⟨rfl, rfl⟩
  | cons x xs ih =>
      have hx : bad x = false := h x List.mem_cons_self
      rw [visited, hx] at h
      obtain ⟨hvisited, hsurvivors⟩ := ih fun y hy => h y (List.mem_cons_of_mem x hy)
      rw [visited, survivors, hx, hvisited, if_neg Bool.false_ne_true, hsurvivors]
      exact ⟨rfl, rfl⟩

/-! ## Which elements -/

/-- The elements of a list at the places that a condition on what is before them
selects. -/
def selectBy (p : List α → α → Bool) (xs : List α) : List α :=
  (xs.zipIdx.filter fun q => p (xs.take q.2) q.1).map Prod.fst

theorem selectBy_sublist (p : List α → α → Bool) (xs : List α) :
    (selectBy p xs).Sublist xs := by
  have hall : xs.zipIdx.map Prod.fst = xs := List.zipIdx_map_fst 0 xs
  have hsome : (selectBy p xs).Sublist (xs.zipIdx.map Prod.fst) :=
    List.filter_sublist.map Prod.fst
  rwa [hall] at hsome

theorem selectBy_concat (p : List α → α → Bool) (xs : List α) (x : α) :
    selectBy p (xs ++ [x]) = selectBy p xs ++ if p xs x then [x] else [] := by
  unfold selectBy
  rw [List.zipIdx_append, List.filter_append, List.map_append]
  congr 1
  · congr 1
    apply List.filter_congr
    rintro ⟨y, i⟩ hy
    obtain ⟨-, hi, -⟩ := List.mem_zipIdx hy
    rw [List.take_append_of_le_length (by omega)]
  · cases hp : p xs x <;> simp [hp]

theorem selectBy_map {β : Type} (f : α → β) (p : List β → β → Bool) (xs : List α) :
    selectBy p (xs.map f) = (selectBy (fun before x => p (before.map f) (f x)) xs).map f := by
  induction xs using List.reverseRecOn with
  | nil => rfl
  | append_singleton xs x ih =>
      rw [List.map_append, List.map_singleton, selectBy_concat, selectBy_concat, ih,
        List.map_append]
      cases p (xs.map f) (f x) <;> rfl

/-- **An element is visited exactly when an even number of bad ones are directly
before it.** -/
theorem visited_eq_filter (xs : List α) :
    visited bad false xs = selectBy (fun before _ => trailing bad before % 2 == 0) xs := by
  induction xs using List.reverseRecOn with
  | nil => rfl
  | append_singleton xs x ih =>
      rw [visited_append, selectBy_concat, ih, overruns_eq]
      cases trailing bad xs % 2 == 0 <;> rfl

/-- **It is erased when it is bad as well.** -/
theorem survivors_eq_filter (xs : List α) :
    survivors bad false xs =
      selectBy (fun before x => !(trailing bad before % 2 == 0 && bad x)) xs := by
  induction xs using List.reverseRecOn with
  | nil => rfl
  | append_singleton xs x ih =>
      rw [survivors_append, selectBy_concat, ih, overruns_eq]
      cases trailing bad xs % 2 == 0 <;> cases hx : bad x <;> simp [survivors, hx]

/-! ## How many -/

/-- **At most half of the bad elements are left.** -/
theorem count_survivors (bad : α → Bool) (skip : Bool) (xs : List α) :
    2 * (survivors bad skip xs).countP bad ≤ xs.countP bad + skip.toNat := by
  induction xs generalizing skip with
  | nil => simp [survivors]
  | cons x xs ih =>
      have hstep := ih true
      have hvisit := ih false
      rw [Bool.toNat_true] at hstep
      rw [Bool.toNat_false] at hvisit
      cases skip <;> cases hx : bad x <;>
        simp only [survivors, hx, if_true, if_false, Bool.false_eq_true, List.countP_cons,
          Bool.toNat_true, Bool.toNat_false] <;>
        omega

/-- **An element that is stepped over has an erased one before it.** -/
theorem length_survivors (bad : α → Bool) (skip : Bool) (xs : List α) :
    (survivors bad skip xs).length + (overruns bad skip xs).toNat ≤ xs.length + skip.toNat := by
  induction xs generalizing skip with
  | nil => simp [survivors, overruns]
  | cons x xs ih =>
      have hstep := ih true
      have hvisit := ih false
      rw [Bool.toNat_true] at hstep
      rw [Bool.toNat_false] at hvisit
      cases skip <;> cases hx : bad x <;>
        simp only [survivors, overruns, hx, if_true, if_false, Bool.false_eq_true,
          List.length_cons, Bool.toNat_true, Bool.toNat_false] <;>
        omega

end Erasing

end XplaneServer.Foundation
