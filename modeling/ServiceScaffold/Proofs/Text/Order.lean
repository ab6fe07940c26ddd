import Mathlib.Data.List.Sort
import ServiceScaffold.Text.Basic

/-! # The order of texts

The bytewise order is a linear one, so a list sorted by it is determined by what is in it. Texts that
are put in order are the same texts, each one as often.
-/

namespace ServiceScaffold.Text

theorem ble_cons_iff {a b : Char} {as bs : Text} :
    ble (a :: as) (b :: bs) = true ↔ a.toNat < b.toNat ∨ a = b ∧ ble as bs = true := by
  simp only [ble, Bool.or_eq_true, Bool.and_eq_true, decide_eq_true_eq]

theorem ble_trans (first second third : Text) (hfirst : ble first second = true)
    (hsecond : ble second third = true) : ble first third = true := by
  induction first generalizing second third with
  | nil => exact ble.eq_1 third
  | cons a as ih =>
      match second, third with
      | [], _ => cases hfirst
      | _ :: _, [] => cases hsecond
      | b :: bs, c :: cs =>
        rw [ble_cons_iff] at hfirst hsecond ⊢
        rcases hfirst with hlt | ⟨rfl, hfirst⟩
        · rcases hsecond with hlt' | ⟨rfl, -⟩
          · exact Or.inl (Nat.lt_trans hlt hlt')
          · exact Or.inl hlt
        · exact hsecond.imp_right fun ⟨heq, hsecond⟩ => ⟨heq, ih bs cs hfirst hsecond⟩

theorem ble_total (first second : Text) : ble first second || ble second first := by
  rw [Bool.or_eq_true]
  induction first generalizing second with
  | nil => exact Or.inl (ble.eq_1 second)
  | cons a as ih =>
      match second with
      | [] => exact Or.inr (ble.eq_1 _)
      | b :: bs =>
        rw [ble_cons_iff, ble_cons_iff]
        rcases Nat.lt_trichotomy a.toNat b.toNat with hlt | heq | hgt
        · exact Or.inl (Or.inl hlt)
        · obtain rfl := Char.toNat_inj.mp heq
          exact (ih bs).imp (fun h => Or.inr ⟨rfl, h⟩) fun h => Or.inr ⟨rfl, h⟩
        · exact Or.inr (Or.inl hgt)

theorem ble_refl (text : Text) : ble text text = true := by
  have htotal := ble_total text text
  rwa [Bool.or_self] at htotal

theorem ble_antisymm {first second : Text} (hfirst : ble first second = true)
    (hsecond : ble second first = true) : first = second := by
  induction first generalizing second with
  | nil =>
      cases second with
      | nil => rfl
      | cons => cases hsecond
  | cons a as ih =>
      match second with
      | [] => cases hfirst
      | b :: bs =>
        rw [ble_cons_iff] at hfirst hsecond
        rcases hfirst with hlt | ⟨rfl, hfirst⟩
        · rcases hsecond with hgt | ⟨rfl, -⟩
          · exact absurd hgt (Nat.lt_asymm hlt)
          · exact absurd hlt (Nat.lt_irrefl _)
        · rw [ih hfirst (hsecond.resolve_left (Nat.lt_irrefl _)).2]

/-! ## Texts in order -/

theorem inOrder_eq_insertionSort (texts : List Text) :
    inOrder texts = texts.insertionSort fun first second => ble first second = true := by
  have hinsert (text : Text) (texts : List Text) : insertInOrder text texts =
      texts.orderedInsert (fun first second => ble first second = true) text := by
    induction texts with
    | nil => rfl
    | cons other rest ih => rw [insertInOrder, List.orderedInsert_cons, ih]
  induction texts with
  | nil => rfl
  | cons text texts ih => rw [inOrder, List.foldr_cons, hinsert, List.insertionSort_cons, ← ih, inOrder]

theorem perm_inOrder (texts : List Text) : (inOrder texts).Perm texts := by
  rw [inOrder_eq_insertionSort]
  exact List.perm_insertionSort _ texts

theorem pairwise_inOrder (texts : List Text) :
    (inOrder texts).Pairwise fun first second => ble first second = true := by
  have htrans : IsTrans Text fun first second => ble first second = true := ⟨ble_trans⟩
  have htotal : Std.Total fun first second => ble first second = true :=
    ⟨fun first second => Bool.or_eq_true_iff.mp (ble_total first second)⟩
  rw [inOrder_eq_insertionSort]
  exact List.pairwise_insertionSort _ texts

end ServiceScaffold.Text
