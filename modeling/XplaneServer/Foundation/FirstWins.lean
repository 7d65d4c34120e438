/-
  Foundation/FirstWins.lean --- ordered maps filled by first-wins insertion.

  A list of bindings is folded into an ordered map with `insertIfNew`, so an
  earlier binding of a key is never replaced by a later one.  The whole map is
  then determined by the first binding of every key, which is what makes the
  order of the others irrelevant.
-/
import Mathlib.Data.List.Basic
import Std.Data.ExtTreeMap

set_option autoImplicit false

namespace XplaneServer.Foundation

open Std (ExtTreeMap TransCmp LawfulEqCmp)

variable {κ ν : Type} {cmp : κ → κ → Ordering}

/-- The value of the first binding of a key in a list of bindings. -/
def firstBinding [DecidableEq κ] (k : κ) (bindings : List (κ × ν)) : Option ν :=
  (bindings.find? fun p => p.1 = k).map Prod.snd

/-- Add bindings to a map, in order, each one only when its key is new. -/
def firstWins [TransCmp cmp] (m : ExtTreeMap κ ν cmp) (bindings : List (κ × ν)) :
    ExtTreeMap κ ν cmp :=
  bindings.foldl (fun m p => m.insertIfNew p.1 p.2) m

@[simp] theorem firstBinding_nil [DecidableEq κ] (k : κ) :
    firstBinding k ([] : List (κ × ν)) = none := rfl

theorem firstBinding_cons [DecidableEq κ] (k : κ) (p : κ × ν) (l : List (κ × ν)) :
    firstBinding k (p :: l) = if p.1 = k then some p.2 else firstBinding k l := by
  unfold firstBinding
  rw [List.find?_cons]
  split <;> simp_all

theorem firstBinding_isSome [DecidableEq κ] {k : κ} {l : List (κ × ν)} :
    (firstBinding k l).isSome ↔ k ∈ l.map Prod.fst := by
  unfold firstBinding
  rw [Option.isSome_map, List.find?_isSome, List.mem_map]
  simp

@[simp] theorem firstWins_nil [TransCmp cmp] (m : ExtTreeMap κ ν cmp) :
    firstWins m [] = m := rfl

theorem firstWins_append [TransCmp cmp] (m : ExtTreeMap κ ν cmp)
    (l₁ l₂ : List (κ × ν)) :
    firstWins m (l₁ ++ l₂) = firstWins (firstWins m l₁) l₂ := by
  simp [firstWins]

/-- A state whose steps each add at most one binding to a map holds, after a
fold, the bindings of all the steps. -/
theorem foldl_eq_firstWins [TransCmp cmp] {σ ι : Type} (step : σ → ι → σ)
    (read : σ → ExtTreeMap κ ν cmp) (f : ι → Option (κ × ν)) (I : σ → Prop)
    (hinv : ∀ s i, I s → I (step s i))
    (hstep : ∀ s i, I s → read (step s i) = firstWins (read s) (f i).toList) :
    ∀ (l : List ι) (s : σ), I s →
      read (l.foldl step s) = firstWins (read s) (l.filterMap f) := by
  intro l
  induction l with
  | nil => intro s _; rfl
  | cons i l ih =>
      intro s hs
      rw [List.foldl_cons, ih (step s i) (hinv s i hs), hstep s i hs, ← firstWins_append]
      cases hf : f i <;> simp [hf]

section Lookup

variable [TransCmp cmp] [LawfulEqCmp cmp] [DecidableEq κ]

/-- Inserting only when new keeps the value a key has. -/
theorem getElem?_insertIfNew_or (m : ExtTreeMap κ ν cmp) (k a : κ) (v : ν) :
    (m.insertIfNew k v)[a]? = m[a]?.or (if k = a then some v else none) := by
  rw [ExtTreeMap.getElem?_insertIfNew]
  by_cases hka : k = a
  · subst hka
    by_cases hmem : k ∈ m <;> simp [hmem]
  · simp [hka, Std.LawfulEqCmp.compare_eq_iff_eq]

/-- **First wins.**  A key keeps the value the map had, and otherwise has the
value of its first binding. -/
theorem getElem?_firstWins (m : ExtTreeMap κ ν cmp) (l : List (κ × ν)) (k : κ) :
    (firstWins m l)[k]? = m[k]?.or (firstBinding k l) := by
  induction l generalizing m with
  | nil => simp
  | cons p l ih =>
      have hstep : firstWins m (p :: l) = firstWins (m.insertIfNew p.1 p.2) l := rfl
      rw [hstep, ih, getElem?_insertIfNew_or, firstBinding_cons]
      by_cases hk : p.1 = k <;> cases m[k]? <;> simp [hk]

/-- Only the first binding of each key matters. -/
theorem firstWins_congr {l₁ l₂ : List (κ × ν)} (m : ExtTreeMap κ ν cmp)
    (h : ∀ k, firstBinding k l₁ = firstBinding k l₂) :
    firstWins m l₁ = firstWins m l₂ := by
  apply ExtTreeMap.ext_getElem?
  intro k
  rw [getElem?_firstWins, getElem?_firstWins, h k]

/-- The keys after the bindings are the keys before them and the keys bound. -/
theorem mem_firstWins {m : ExtTreeMap κ ν cmp} {l : List (κ × ν)} {k : κ} :
    k ∈ firstWins m l ↔ k ∈ m ∨ k ∈ l.map Prod.fst := by
  rw [← ExtTreeMap.isSome_getElem?_iff_mem, ← ExtTreeMap.isSome_getElem?_iff_mem,
    getElem?_firstWins, ← firstBinding_isSome, Option.isSome_or, Bool.or_eq_true]

end Lookup

end XplaneServer.Foundation
