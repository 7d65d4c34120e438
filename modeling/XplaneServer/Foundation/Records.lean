/-
  Foundation/Records.lean --- when a concatenation of named records can be read
  back.

  A record is a name followed by an ending taken from a fixed set `T`.  Nothing
  marks where a name stops except the ending after it, so the text of a list of
  records is unambiguous only under two conditions:

      NonOverlapping T   no ending starts strictly inside another one
      Free T name        no ending occurs inside a name

  Under both, the records are read off the text from the left, one at a time
  (`record_split_unique`), and the whole list is recovered
  (`records_injective`).
-/
import Mathlib.Data.List.Infix
import Mathlib.Data.Set.Basic

set_option autoImplicit false

namespace XplaneServer.Foundation

variable {α : Type}

/-- No ending starts strictly inside another ending, whatever follows the two,
and none is a proper prefix of another. -/
def NonOverlapping (T : Set (List α)) : Prop :=
  ∀ t ∈ T, ∀ t' ∈ T, ∀ c r r' : List α,
    t ++ r = c ++ (t' ++ r') → c.length < t.length → c = [] ∧ t = t'

/-- No ending occurs inside the name. -/
def Free (T : Set (List α)) (name : List α) : Prop :=
  ∀ t ∈ T, ¬ t <:+: name

/-- The text of a list of records. -/
def recordsText (records : List (List α × List α)) : List α :=
  records.flatMap fun p => p.1 ++ p.2

/-- Two ways to split a list at an element are one, when neither of them splits
it earlier than the other. -/
theorem append_cons_inj {a b : α} {l l' r r' : List α} (h : l ++ a :: r = l' ++ b :: r')
    (hbefore : b ∉ l) (hafter : a ∉ l' ∨ b ∉ r) : l = l' ∧ a = b := by
  rw [List.append_eq_append_iff] at h
  rcases h with ⟨_ | ⟨x, c⟩, hl, hr⟩ | ⟨_ | ⟨x, c⟩, hl, hr⟩
  · exact ⟨by simpa using hl.symm, (List.cons.inj hr).1⟩
  · obtain ⟨rfl, rfl⟩ := List.cons.inj hr
    simp [hl] at hafter
  · exact ⟨by simpa using hl, (List.cons.inj hr).1.symm⟩
  · obtain ⟨rfl, -⟩ := List.cons.inj hr
    simp [hl] at hbefore

variable {T : Set (List α)}

/-- An ending inside the longer of two names, or overlapping it, is excluded,
so the shorter name is the longer one. -/
theorem record_split_of_prefix (hT : NonOverlapping T) {n c t₁ t₂ r₁ r₂ : List α}
    (ht₁ : t₁ ∈ T) (ht₂ : t₂ ∈ T) (hfree : Free T (n ++ c))
    (h : t₁ ++ r₁ = c ++ (t₂ ++ r₂)) : c = [] ∧ t₁ = t₂ ∧ r₁ = r₂ := by
  by_cases hlt : c.length < t₁.length
  · obtain ⟨hc, ht⟩ := hT t₁ ht₁ t₂ ht₂ c r₁ r₂ h hlt
    subst hc ht
    exact ⟨rfl, rfl, by simpa using h⟩
  · have hinside : t₁ <+: c :=
      List.prefix_of_prefix_length_le ⟨r₁, h⟩ ⟨t₂ ++ r₂, rfl⟩ (by omega)
    exact absurd (hinside.isInfix.trans ⟨n, [], by simp⟩) (hfree t₁ ht₁)

/-- The first record of a text is determined by the text. -/
theorem record_split_unique (hT : NonOverlapping T)
    {n₁ n₂ t₁ t₂ r₁ r₂ : List α} (ht₁ : t₁ ∈ T) (ht₂ : t₂ ∈ T)
    (hfree₁ : Free T n₁) (hfree₂ : Free T n₂)
    (h : n₁ ++ (t₁ ++ r₁) = n₂ ++ (t₂ ++ r₂)) :
    n₁ = n₂ ∧ t₁ = t₂ ∧ r₁ = r₂ := by
  rw [List.append_eq_append_iff] at h
  rcases h with ⟨c, hn, hrest⟩ | ⟨c, hn, hrest⟩
  · obtain ⟨hc, ht, hr⟩ :=
      record_split_of_prefix hT ht₁ ht₂ (hn ▸ hfree₂) hrest
    exact ⟨by simp [hn, hc], ht, hr⟩
  · obtain ⟨hc, ht, hr⟩ :=
      record_split_of_prefix hT ht₂ ht₁ (hn ▸ hfree₁) hrest
    exact ⟨by simp [hn, hc], ht.symm, hr.symm⟩

/-- A record is not empty: an empty ending would occur in every name. -/
theorem record_ne_nil {p : List α × List α} (ht : p.2 ∈ T) (hfree : Free T p.1) :
    p.1 ++ p.2 ≠ [] := by
  intro hnil
  obtain ⟨-, hempty⟩ := List.append_eq_nil_iff.mp hnil
  exact hfree p.2 ht (hempty ▸ List.nil_infix)

/-- The text of a list of records determines the list. -/
theorem records_injective (hT : NonOverlapping T) :
    ∀ {rs₁ rs₂ : List (List α × List α)},
      (∀ p ∈ rs₁, p.2 ∈ T ∧ Free T p.1) → (∀ p ∈ rs₂, p.2 ∈ T ∧ Free T p.1) →
      recordsText rs₁ = recordsText rs₂ → rs₁ = rs₂ := by
  intro rs₁
  induction rs₁ with
  | nil =>
      intro rs₂ _ h₂ htext
      cases rs₂ with
      | nil => rfl
      | cons p rs =>
          have hp := h₂ p List.mem_cons_self
          refine absurd ?_ (record_ne_nil hp.1 hp.2)
          have hnil : (p.1 ++ p.2) ++ recordsText rs = [] := by
            simpa [recordsText] using htext.symm
          exact (List.append_eq_nil_iff.mp hnil).1
  | cons p rs ih =>
      intro rs₂ h₁ h₂ htext
      have hp := h₁ p List.mem_cons_self
      cases rs₂ with
      | nil =>
          refine absurd ?_ (record_ne_nil hp.1 hp.2)
          have hnil : (p.1 ++ p.2) ++ recordsText rs = [] := by
            simpa [recordsText] using htext
          exact (List.append_eq_nil_iff.mp hnil).1
      | cons q qs =>
          have hq := h₂ q List.mem_cons_self
          have hsplit : p.1 ++ (p.2 ++ recordsText rs) =
              q.1 ++ (q.2 ++ recordsText qs) := by
            simpa [recordsText] using htext
          obtain ⟨hname, hending, hrest⟩ :=
            record_split_unique hT hp.1 hq.1 hp.2 hq.2 hsplit
          have htail : rs = qs :=
            ih (fun x hx => h₁ x (List.mem_cons_of_mem p hx))
              (fun x hx => h₂ x (List.mem_cons_of_mem q hx)) hrest
          rw [Prod.ext hname hending, htail]

end XplaneServer.Foundation
