import Mathlib

/-!
# Fields of a byte frame

Big-endian numbers of fixed width, and the bytes between two offsets of a frame.
-/

namespace Fields
open List

/-- The last `width` base-256 digits, most significant first. -/
def beBytes : Nat → Nat → List UInt8
  | 0, _ => []
  | width + 1, value => beBytes width (value / 256) ++ [UInt8.ofNat value]

def beNat (bytes : List UInt8) : Nat := bytes.foldl (fun value byte => value * 256 + byte.toNat) 0

@[simp] theorem length_beBytes (width value : Nat) : (beBytes width value).length = width := by
  induction width generalizing value with
  | zero => rfl
  | succ width ih => rw [beBytes, length_append, ih, length_singleton]

theorem beNat_beBytes {width value : Nat} (h : value < 256 ^ width) :
    beNat (beBytes width value) = value := by
  induction width generalizing value with
  | zero =>
    rw [Nat.pow_zero] at h
    show 0 = value
    omega
  | succ width ih =>
    have hd : value / 256 < 256 ^ width := by
      rw [Nat.pow_succ] at h
      exact Nat.div_lt_of_lt_mul (by omega)
    have hb : (UInt8.ofNat value).toNat = value % 256 := by simp
    have hp := ih hd
    unfold beNat at hp ⊢
    rw [beBytes, foldl_append, hp, foldl_cons, foldl_nil, hb]
    omega

/-- `frame[offset..offset + width]`, or what there is of it. -/
def bytesAt (frame : List UInt8) (offset width : Nat) : List UInt8 :=
  (frame.drop offset).take width

variable {parts : List (List UInt8)} {frame part : List UInt8} {offset width : Nat}

/-- A frame put together from parts gives each of them back. -/
theorem bytesAt_parts (k : Nat) (hf : frame = parts.flatten) (hp : parts[k]? = some part)
    (ho : (parts.take k).flatten.length = offset) (hw : part.length = width) :
    bytesAt frame offset width = part := by
  obtain ⟨hk, rfl⟩ := List.getElem?_eq_some_iff.1 hp
  subst hf ho hw
  have hs : parts = parts.take k ++ parts[k] :: parts.drop (k + 1) := by
    rw [← drop_eq_getElem_cons hk, take_append_drop]
  rw [bytesAt, congrArg flatten hs, flatten_append, drop_left, flatten_cons, take_left]

theorem beNat_parts (k : Nat) (hf : frame = parts.flatten) {value : Nat}
    (hp : parts[k]? = some (beBytes width value)) (ho : (parts.take k).flatten.length = offset)
    (hv : value < 256 ^ width) : beNat (bytesAt frame offset width) = value := by
  rw [bytesAt_parts k hf hp ho (length_beBytes ..), beNat_beBytes hv]

theorem getElem?_of_bytesAt {byte : UInt8} (h : bytesAt frame offset 1 = [byte]) :
    frame[offset]? = some byte := by
  have hh := congrArg head? h
  rwa [bytesAt, head?_take, if_neg Nat.one_ne_zero, head?_drop, head?_cons] at hh

end Fields
