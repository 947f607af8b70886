import Mathlib.Data.String.Basic

/-!
# Byte strings

Payloads, encoded texts and the input of hash functions are lists of bytes.  The UTF-8
encoding `utf8` of a text identifies it, and the exclusive or with a byte string of the same
length is undone by doing it again.
-/

namespace Skyscale
namespace Lib

abbrev Bytes : Type := List UInt8

/-- The UTF-8 encoding of a text. -/
def utf8 (text : String) : Bytes := text.toUTF8.data.toList

theorem utf8_injective : Function.Injective utf8 := by
  intro a b h
  have harray : a.toUTF8.data = b.toUTF8.data := Array.toList_inj.mp h
  exact String.toByteArray_inj.mp (ByteArray.ext harray)

theorem zipWith_xor_cancel : ∀ {xs ys : Bytes}, xs.length = ys.length →
    List.zipWith (· ^^^ ·) xs (List.zipWith (· ^^^ ·) xs ys) = ys
  | [], [], _ => rfl
  | x :: xs, y :: ys, h => by
    have hrest := zipWith_xor_cancel (Nat.succ.inj h)
    simp only [List.zipWith_cons_cons, hrest]
    rw [← UInt8.xor_assoc, UInt8.xor_self, UInt8.zero_xor]

end Lib
end Skyscale
