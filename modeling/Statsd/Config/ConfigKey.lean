/-
The key of a configuration (config/ConfigKey.h): the uid that sent it and a 64-bit id. Files that belong
to a config have its key in their names, as the text of the uid and of the id with an underscore between
them; the name of one config's file may end like that of another.
-/
import Mathlib.Tactic

namespace Statsd

structure ConfigKey where
  mUid : Int
  mId : Int
deriving DecidableEq

/-- What `%d` and `%lld` print. -/
def decimal (i : Int) : List Char :=
  if i < 0 then '-' :: Nat.toDigits 10 i.natAbs else Nat.toDigits 10 i.natAbs

theorem underscore_notMem_decimal (i : Int) : '_' ∉ decimal i := by
  unfold decimal
  split
  · simpa using Nat.underscore_not_in_toDigits
  · exact Nat.underscore_not_in_toDigits

theorem decimal_ne_nil (i : Int) : decimal i ≠ [] := by
  unfold decimal
  split
  · simp
  · exact Nat.toDigits_ne_nil

theorem minus_notMem_toDigits (n : Nat) : '-' ∉ Nat.toDigits 10 n := by
  intro h
  have := Nat.isDigit_of_mem_toDigits (by decide) (by decide) h
  exact absurd this (by decide)

theorem decimal_injective : Function.Injective decimal := by
  have hdigits : ∀ m n, Nat.toDigits 10 m = Nat.toDigits 10 n → m = n := by
    intro m n h
    rw [← Nat.ofDigitChars_ten_toDigits (n := m), h, Nat.ofDigitChars_ten_toDigits]
  intro i j h
  unfold decimal at h
  split at h <;> split at h
  · have := hdigits _ _ (List.cons.inj h).2
    omega
  · exact absurd (h ▸ List.mem_cons_self) (minus_notMem_toDigits _)
  · exact absurd (h.symm ▸ List.mem_cons_self) (minus_notMem_toDigits _)
  · have := hdigits _ _ h
    omega

namespace ConfigKey

/-- `StringPrintf("%d_%lld", uid, id)`. -/
def text (key : ConfigKey) : List Char := decimal key.mUid ++ '_' :: decimal key.mId

/-- The text of one key is the end of a text that ends in another: the ids are the same, and the uid's text is
an end of the other's. -/
def EndsIn (key key' : ConfigKey) : Prop := key.mId = key'.mId ∧ decimal key.mUid <:+ decimal key'.mUid

instance (key key' : ConfigKey) : Decidable (EndsIn key key') := inferInstanceAs (Decidable (_ ∧ _))

theorem EndsIn.refl (key : ConfigKey) : EndsIn key key := ⟨rfl, List.suffix_rfl⟩

theorem suffix_of_notMem {α : Type} {a : α} {l l' pre : List α} (hl : a ∉ l) (h : l <:+ pre ++ a :: l') : l <:+ l' := by
  have hcons : a :: l' <:+ pre ++ a :: l' := List.suffix_append pre (a :: l')
  rcases List.suffix_or_suffix_of_suffix h hcons with h | h
  · rcases List.suffix_cons_iff.1 h with h | h
    · exact absurd (h ▸ List.mem_cons_self) hl
    · exact h
  · exact absurd (h.subset List.mem_cons_self) hl

theorem split_last {α : Type} {a : α} {x y l l' : List α} (hl : a ∉ l) (hl' : a ∉ l') (h : x ++ a :: l = y ++ a :: l') :
    x = y ∧ l = l' := by
  have h1 : l <:+ l' := suffix_of_notMem hl (h ▸ (List.suffix_cons a l).trans (List.suffix_append x (a :: l)))
  have h2 : l' <:+ l := suffix_of_notMem hl' (h ▸ (List.suffix_cons a l').trans (List.suffix_append y (a :: l')))
  have heq : l = l' := h1.eq_of_length (le_antisymm h1.length_le h2.length_le)
  subst heq
  exact ⟨List.append_cancel_right h, rfl⟩

theorem text_suffix_iff (key key' : ConfigKey) (pre : List Char) :
    key.text <:+ pre ++ '_' :: key'.text ↔ EndsIn key key' := by
  unfold text EndsIn
  constructor
  · rintro ⟨p, hp⟩
    have h : (p ++ decimal key.mUid) ++ '_' :: decimal key.mId = (pre ++ '_' :: decimal key'.mUid) ++ '_' :: decimal key'.mId := by
      simpa using hp
    obtain ⟨hx, hid⟩ := split_last (underscore_notMem_decimal _) (underscore_notMem_decimal _) h
    exact ⟨decimal_injective hid, suffix_of_notMem (underscore_notMem_decimal _) (hx ▸ List.suffix_append p _)⟩
  · rintro ⟨hid, p, hp⟩
    exact ⟨pre ++ '_' :: p, by rw [hid, ← hp]; simp⟩

end ConfigKey

end Statsd
