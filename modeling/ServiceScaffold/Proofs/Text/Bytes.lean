import Mathlib.Tactic.SplitIfs
import ServiceScaffold.Proofs.Text.Order

/-! # Texts by their bytes

Texts are put in the order of their code points. That is the order of their UTF-8 forms, byte by byte: a
greater code point never has a shorter form, and of two forms of one length the digits of the code
points stand in their places.
-/

namespace ServiceScaffold.Text

/-- The UTF-8 form of a text. -/
def utf8 (text : Text) : List UInt8 := text.flatMap String.utf8EncodeChar

theorem utf8_cons (c : Char) (text : Text) : utf8 (c :: text) = String.utf8EncodeChar c ++ utf8 text :=
  List.flatMap_cons

theorem ofNat_lt_ofNat_iff {m n : Nat} (hm : m < 256) (hn : n < 256) :
    UInt8.ofNat m < UInt8.ofNat n ↔ m < n := by
  rw [UInt8.lt_iff_toNat_lt, UInt8.toNat_ofNat_of_lt' hm, UInt8.toNat_ofNat_of_lt' hn]

theorem ofNat_eq_ofNat_iff {m n : Nat} (hm : m < 256) (hn : n < 256) :
    UInt8.ofNat m = UInt8.ofNat n ↔ m = n := by
  rw [← UInt8.toNat_inj, UInt8.toNat_ofNat_of_lt' hm, UInt8.toNat_ofNat_of_lt' hn]

theorem codePoint_lt (c : Char) : c.val.toNat < 0x110000 := by
  rcases c.valid with hlow | ⟨-, hhigh⟩
  · exact Nat.lt_trans hlow (by decide)
  · exact hhigh

/-- The forms of two characters differ at a byte that both of them have, whatever follows. -/
theorem utf8EncodeChar_append_lt {a b : Char} (hlt : a.toNat < b.toNat) (as bs : List UInt8) :
    String.utf8EncodeChar a ++ as < String.utf8EncodeChar b ++ bs := by
  have hbound := codePoint_lt b
  change a.val.toNat < b.val.toNat at hlt
  unfold String.utf8EncodeChar
  generalize a.val.toNat = m at *
  generalize b.val.toNat = n at *
  -- the digits to the base 64, each from the one before
  have hsecond (n : Nat) : n / 4096 = n / 64 / 64 := (Nat.div_div_eq_div_mul n 64 64).symm
  have hthird (n : Nat) : n / 262144 = n / 64 / 64 / 64 := by
    rw [Nat.div_div_eq_div_mul, Nat.div_div_eq_div_mul]
  dsimp only
  simp only [hsecond, hthird]
  -- one case for each pair of lengths; those with the longer form first cannot be
  split_ifs <;>
    simp (disch := omega) only [List.cons_append, List.nil_append, List.cons_lt_cons_iff,
      ofNat_lt_ofNat_iff, ofNat_eq_ofNat_iff] <;>
    omega

theorem append_lt_append_iff (common first second : List UInt8) :
    common ++ first < common ++ second ↔ first < second := by
  induction common with
  | nil => rfl
  | cons byte common ih => rw [List.cons_append, List.cons_append, List.cons_lt_cons_self, ih]

theorem utf8_ne_nil {text : Text} (hne : text ≠ []) : utf8 text ≠ [] := by
  obtain ⟨c, text, rfl⟩ := List.exists_cons_of_ne_nil hne
  rw [utf8_cons]
  exact List.append_ne_nil_of_left_ne_nil String.utf8EncodeChar_ne_nil _

/-- Of two texts the one with the smaller bytes comes first. -/
theorem utf8_lt_iff {first second : Text} :
    utf8 first < utf8 second ↔ ble first second = true ∧ first ≠ second := by
  induction first generalizing second with
  | nil =>
      cases second with
      | nil => simp
      | cons b bs =>
          obtain ⟨byte, rest, hbytes⟩ := List.exists_cons_of_ne_nil (utf8_ne_nil (List.cons_ne_nil b bs))
          rw [hbytes]
          exact iff_of_true (List.nil_lt_cons _ _) ⟨ble.eq_1 _, by simp⟩
  | cons a as ih =>
      cases second with
      | nil =>
          refine iff_of_false (List.not_lt_nil _) ?_
          rintro ⟨hble, -⟩
          cases hble
      | cons b bs =>
          rw [utf8_cons, utf8_cons, ble_cons_iff]
          rcases Nat.lt_trichotomy a.toNat b.toNat with hlt | heq | hgt
          · refine iff_of_true (utf8EncodeChar_append_lt hlt _ _) ⟨Or.inl hlt, ?_⟩
            rintro ⟨⟩
            exact Nat.lt_irrefl _ hlt
          · obtain rfl := Char.toNat_inj.mp heq
            rw [append_lt_append_iff]
            simpa using ih
          · refine iff_of_false (List.lt_asymm (utf8EncodeChar_append_lt hgt _ _)) ?_
            rintro ⟨hlt | ⟨rfl, -⟩, -⟩
            · exact Nat.lt_asymm hlt hgt
            · exact Nat.lt_irrefl _ hgt

end ServiceScaffold.Text
