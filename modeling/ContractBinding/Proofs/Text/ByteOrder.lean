import Mathlib.Data.Nat.Notation
import Mathlib.Data.String.Basic

/-!
# The order of texts

Texts are ordered by their characters, and that is the order of their bytes: characters with greater
numbers have greater bytes, from the first one on.
-/

namespace ContractBinding.Text

/-- The bytes of a text. -/
def bytesOf (text : String) : List UInt8 := text.toUTF8.data.toList

theorem bytesOf_eq_flatMap (text : String) :
    bytesOf text = text.toList.flatMap String.utf8EncodeChar := by
  rw [bytesOf, String.toUTF8_eq_toByteArray, ← String.utf8Encode_toList, List.utf8Encode,
    List.data_toByteArray, List.toList_toArray]

/-- What begins with the bytes of a lesser character is less. -/
theorem utf8EncodeChar_append_lt {c d : Char} (h : c < d) (more rest : List UInt8) :
    String.utf8EncodeChar c ++ more < String.utf8EncodeChar d ++ rest := by
  have hlt : c.val.toNat < d.val.toNat := h
  have hbound (c : Char) : c.val.toNat < 1114112 := by
    rcases c.valid with h | ⟨-, h⟩ <;> omega
  have hdigits (n : Nat) : n / 64 / 64 = n / 4096 ∧ n / 4096 / 64 = n / 262144 := by
    rw [Nat.div_div_eq_div_mul, Nat.div_div_eq_div_mul]
    exact ⟨rfl, rfl⟩
  have hc := hbound c
  have hd := hbound d
  have hcs := hdigits c.val.toNat
  have hds := hdigits d.val.toNat
  unfold String.utf8EncodeChar
  dsimp only
  -- one case for every pair of lengths; between two lengths the first byte decides
  split_ifs <;>
    simp only [List.cons_append, List.nil_append, List.cons_lt_cons_iff, UInt8.lt_iff_toNat_lt,
      ← UInt8.toNat_inj, UInt8.toNat_ofNat'] <;>
    simp (disch := omega) only [Nat.mod_eq_of_lt] <;>
    omega

/-- Texts are ordered as their bytes are. -/
theorem bytesOf_lt_of_lt {a b : String} (h : a < b) : bytesOf a < bytesOf b := by
  rw [String.lt_iff_toList_lt] at h
  rw [bytesOf_eq_flatMap, bytesOf_eq_flatMap]
  generalize a.toList = cs, b.toList = ds at h
  induction h with
  | @nil d ds =>
    obtain ⟨byte, bytes, hd⟩ := List.exists_cons_of_ne_nil (String.utf8EncodeChar_ne_nil (c := d))
    rw [List.flatMap_nil, List.flatMap_cons, hd]
    exact List.nil_lt_cons _ _
  | rel hlt =>
    rw [List.flatMap_cons, List.flatMap_cons]
    exact utf8EncodeChar_append_lt hlt _ _
  | cons _ ih =>
    rw [List.flatMap_cons, List.flatMap_cons]
    exact List.append_left_lt ih

end ContractBinding.Text
