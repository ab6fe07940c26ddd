import Mathlib.Data.List.Infix
import ServiceScaffold.Text.Basic

/-! # The first occurrence of a text in another

What is removed from a text is the first occurrence, wherever it stands.
-/

namespace ServiceScaffold.Text

variable {needle text front back : Text}

theorem occursIn_iff : occursIn needle text = true ↔ needle <:+: text := by
  induction text with
  | nil => simp [occursIn]
  | cons c text ih => rw [occursIn, Bool.or_eq_true, ih, List.isPrefixOf_iff_prefix, List.infix_cons_iff]

/-- The text is `front`, then `needle`, then `back`, and `needle` stands nowhere further left. -/
structure FirstOccurrence (needle text front back : Text) : Prop where
  text_eq : text = front ++ (needle ++ back)
  first : ∀ earlier later, text = earlier ++ (needle ++ later) → front.length ≤ earlier.length

theorem exists_firstOccurrence (hoccurs : needle <:+: text) :
    ∃ front back, FirstOccurrence needle text front back := by
  induction text with
  | nil =>
      obtain rfl := List.infix_nil.mp hoccurs
      exact ⟨[], [], rfl, fun _ _ _ => Nat.zero_le _⟩
  | cons c text ih =>
      by_cases hhead : needle <+: c :: text
      · obtain ⟨back, htext⟩ := hhead
        exact ⟨[], back, htext.symm, fun _ _ _ => Nat.zero_le _⟩
      · obtain ⟨front, back, htext, hfirst⟩ := ih ((List.infix_cons_iff.mp hoccurs).resolve_left hhead)
        refine ⟨c :: front, back, by rw [htext, List.cons_append], fun earlier later heq => ?_⟩
        cases earlier with
        | nil => exact absurd ⟨later, heq.symm⟩ hhead
        | cons d earlier => exact Nat.succ_le_succ (hfirst earlier later (List.cons.inj heq).2)

theorem FirstOccurrence.removeFirst_eq (hfirst : FirstOccurrence needle text front back) :
    removeFirst needle text = front ++ back := by
  induction text generalizing front with
  | nil =>
      obtain ⟨rfl, hrest⟩ := List.append_eq_nil_iff.mp hfirst.text_eq.symm
      rw [(List.append_eq_nil_iff.mp hrest).2]
      rfl
  | cons c text ih =>
      unfold removeFirst
      split
      next tail htail =>
        have htext := List.isPrefixOf?_eq_some_iff_append_eq.mp htail
        obtain rfl := List.length_eq_zero_iff.mp (Nat.le_zero.mp (hfirst.first [] tail htext.symm))
        exact List.append_cancel_left (htext.trans hfirst.text_eq)
      next hnone =>
        cases front with
        | nil =>
            have hhead : List.isPrefixOf? needle (c :: text) = some back :=
              List.isPrefixOf?_eq_some_iff_append_eq.mpr hfirst.text_eq.symm
            rw [hhead] at hnone
            cases hnone
        | cons d front =>
            obtain ⟨rfl, htext⟩ := List.cons.inj hfirst.text_eq
            rw [List.cons_append, ih ⟨htext, fun earlier later heq => ?_⟩]
            exact Nat.succ_le_succ_iff.mp (hfirst.first (c :: earlier) later (by rw [heq]; rfl))

end ServiceScaffold.Text
