import ServiceScaffold.Proofs.Text.Occurrence

/-! # A text put back at the end

The first occurrence of a text is removed and the text is put at the end. That gives the text back
exactly when the occurrences at its end are all that there are, as long as the removed text cannot
overlap itself.
-/

namespace ServiceScaffold.Text

variable {needle text front back part : Text} {c : Char} {count : Nat}

/-- The text so many times, one after the other. -/
def repeated (count : Nat) (needle : Text) : Text := (List.replicate count needle).flatten

@[simp] theorem repeated_zero (needle : Text) : repeated 0 needle = [] := rfl

theorem repeated_succ (count : Nat) (needle : Text) :
    repeated (count + 1) needle = needle ++ repeated count needle := by
  rw [repeated, List.replicate_succ, List.flatten_cons, repeated]

theorem repeated_append_comm (count : Nat) (needle : Text) :
    repeated count needle ++ needle = needle ++ repeated count needle := by
  induction count with
  | zero => simp
  | succ count ih => rw [repeated_succ, List.append_assoc, ih]

/-- No part of the text is both its beginning and its end, but for the whole of it. -/
structure Unbordered (needle : Text) : Prop where
  ne_nil : needle ≠ []
  noBorder : ∀ part, part <+: needle → part <:+ needle → part = [] ∨ part = needle

/-- A text cannot overlap itself if its first letter does not come again. -/
theorem unbordered_cons (hfirst : c ∉ text) : Unbordered (c :: text) := by
  refine ⟨List.cons_ne_nil c text, fun part hprefix hsuffix => ?_⟩
  cases part with
  | nil => exact Or.inl rfl
  | cons d part =>
      obtain ⟨rfl, -⟩ := List.cons_prefix_cons.mp hprefix
      rcases List.suffix_cons_iff.mp hsuffix with heq | hlater
      · exact Or.inr heq
      · exact absurd (hlater.subset List.mem_cons_self) hfirst

/-- What changes places with a text is that text, repeated. -/
theorem Unbordered.append_comm_iff (hneedle : Unbordered needle) :
    back ++ needle = needle ++ back ↔ ∃ count, back = repeated count needle := by
  refine ⟨fun hcomm => ?_, ?_⟩
  · induction hlength : back.length using Nat.strong_induction_on generalizing back with
    | _ length ih =>
      rcases List.append_eq_append_iff.mp hcomm with ⟨rest, hprefix, hsuffix⟩ | ⟨rest, hback, hback'⟩
      · rcases hneedle.noBorder back ⟨rest, hprefix.symm⟩ ⟨rest, hsuffix.symm⟩ with rfl | rfl
        · exact ⟨0, rfl⟩
        · exact ⟨1, by rw [repeated_succ, repeated_zero, List.append_nil]⟩
      · -- one occurrence is taken off the beginning
        have hshorter : rest.length < length := by
          have hpositive := List.length_pos_of_ne_nil hneedle.ne_nil
          rw [← hlength, hback, List.length_append]
          omega
        obtain ⟨count, rfl⟩ := ih rest.length hshorter (hback'.symm.trans hback) rfl
        exact ⟨count + 1, hback.trans (repeated_succ count needle).symm⟩
  · rintro ⟨count, rfl⟩
    exact repeated_append_comm count needle

/-- Nothing before the first occurrence holds another one. -/
theorem FirstOccurrence.notInfix_front (hfirst : FirstOccurrence needle text front back)
    (hne : needle ≠ []) : ¬ needle <:+: front := by
  rintro ⟨before, after, hfront⟩
  have hle := hfirst.first before (after ++ (needle ++ back)) (by
    rw [hfirst.text_eq, ← hfront]
    simp only [List.append_assoc])
  have hpositive := List.length_pos_of_ne_nil hne
  rw [← hfront] at hle
  simp only [List.length_append] at hle
  omega

/-- Behind a text without it, a text that cannot overlap itself occurs first where it was put. -/
theorem Unbordered.firstOccurrence (hneedle : Unbordered needle) (hfront : ¬ needle <:+: front)
    (back : Text) : FirstOccurrence needle (front ++ (needle ++ back)) front back := by
  refine ⟨rfl, fun earlier later heq => ?_⟩
  rcases List.append_eq_append_iff.mp heq with ⟨middle, rfl, -⟩ | ⟨middle, rfl, hlater⟩
  · simp
  · -- an occurrence further left would end in what is before, or overlap the one that was put
    rcases List.append_eq_append_iff.mp hlater with ⟨border, rfl, -⟩ | ⟨border, hborder, hborder'⟩
    · exact absurd ⟨earlier, border, by simp⟩ hfront
    · have hlength : border.length ≤ needle.length := by
        rw [hborder, List.length_append]
        omega
      have hprefix : border <+: needle := List.prefix_of_prefix_length_le
        (hborder' ▸ List.prefix_append border later) (List.prefix_append needle back) hlength
      rcases hneedle.noBorder border hprefix ⟨middle, hborder.symm⟩ with rfl | rfl
      · rw [List.append_nil] at hborder
        exact absurd ⟨earlier, [], by simp [hborder]⟩ hfront
      · have hmiddle : middle = [] := by simpa using hborder
        simp [hmiddle]

/-- The first occurrence at the end and nowhere before: that is when a text is given back by putting
what was removed at the end. -/
theorem Unbordered.removeFirst_append_eq_iff (hneedle : Unbordered needle) :
    removeFirst needle text ++ needle = text ↔
      ∃ front count, ¬ needle <:+: front ∧ text = front ++ repeated (count + 1) needle := by
  constructor
  · intro htext
    have hoccurs : needle <:+: text := ⟨removeFirst needle text, [], by rw [List.append_nil, htext]⟩
    obtain ⟨front, back, hfirst⟩ := exists_firstOccurrence hoccurs
    rw [hfirst.removeFirst_eq, hfirst.text_eq, List.append_assoc] at htext
    obtain ⟨count, rfl⟩ := hneedle.append_comm_iff.mp (List.append_cancel_left htext)
    exact ⟨front, count, hfirst.notInfix_front hneedle.ne_nil, by rw [hfirst.text_eq, repeated_succ]⟩
  · rintro ⟨front, count, hfront, rfl⟩
    rw [repeated_succ, (hneedle.firstOccurrence hfront _).removeFirst_eq, List.append_assoc,
      repeated_append_comm]

end ServiceScaffold.Text
