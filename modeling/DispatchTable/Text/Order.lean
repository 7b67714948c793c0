import DispatchTable.Text.Basic

/-!
# The order of texts

Texts are ordered by their first difference: the smaller code point comes first, and a text comes
before all longer ones that begin with it. This is also the order of their bytes in UTF-8. Of two
different texts exactly one comes before the other.
-/

namespace DispatchTable.Text

/-- Whether a text comes before another. -/
def precedes : Text → Text → Bool
  | _, [] => false
  | [], _ :: _ => true
  | a :: s, b :: t => if a = b then precedes s t else decide (a.toNat < b.toNat)

/-- No text comes before itself. -/
@[simp] theorem precedes_irrefl (s : Text) : precedes s s = false := by
  induction s with
  | nil => rfl
  | cons a s ih => simpa [precedes] using ih

/-- What comes before a text that comes before another comes before the other too. -/
theorem precedes_trans {s t u : Text} (hst : precedes s t = true) (htu : precedes t u = true) :
    precedes s u = true := by
  induction s generalizing t u with
  | nil =>
    cases u with
    | nil => cases t <;> simp [precedes] at htu
    | cons c u => rfl
  | cons a s ih =>
    cases t with
    | nil => simp [precedes] at hst
    | cons b t =>
      cases u with
      | nil => simp [precedes] at htu
      | cons c u =>
        by_cases hab : a = b
        · subst hab
          by_cases hac : a = c
          · simp only [precedes, hac, if_true] at hst htu ⊢
            exact ih hst htu
          · simpa [precedes, hac] using htu
        · by_cases hbc : b = c
          · subst hbc
            simpa [precedes, hab] using hst
          · have h₁ : a.toNat < b.toNat := by simpa [precedes, hab] using hst
            have h₂ : b.toNat < c.toNat := by simpa [precedes, hbc] using htu
            have hac : a ≠ c := fun h => by subst h; omega
            simp only [precedes, hac, if_false, decide_eq_true_eq]
            omega

/-- Of two different texts, one comes before the other. -/
theorem precedes_of_ne {s t : Text} (hne : s ≠ t) (h : precedes s t = false) :
    precedes t s = true := by
  induction s generalizing t with
  | nil =>
    cases t with
    | nil => exact absurd rfl hne
    | cons b t => simp [precedes] at h
  | cons a s ih =>
    cases t with
    | nil => rfl
    | cons b t =>
      by_cases hab : a = b
      · subst hab
        simp only [precedes, if_true] at h ⊢
        exact ih (fun hs => hne (by rw [hs])) h
      · have hn : a.toNat ≠ b.toNat := fun hn => hab (Char.toNat_inj.mp hn)
        have hle : ¬a.toNat < b.toNat := by simpa [precedes, hab] using h
        simp only [precedes, Ne.symm hab, if_false, decide_eq_true_eq]
        omega

end DispatchTable.Text
