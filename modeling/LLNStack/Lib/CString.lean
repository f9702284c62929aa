import LLNStack.Lib.Words

/-!
# LLNStack.Lib.CString

C strings in memory. A pointer into a buffer is the list of the bytes from there to the end of the
buffer, so that `p + k` is `p.drop k`, and a function returns `none` if it reads or writes past the
end. A text `s` is in memory as `s ++ 0 :: rest`: its characters, none of them NUL, the NUL, and
what else the buffer holds.
-/

namespace LLNStack
namespace Lib

def ascii (c : Char) : Byte := BitVec.ofNat 8 c.toNat

def strlen : Bytes → Option Nat
  | [] => none
  | x :: p => if x = 0 then some 0 else (strlen p).map (· + 1)

/-- The offset of the last `c`; the inner `none` is NULL. -/
def strrchr (c : Byte) : Bytes → Option (Option Nat)
  | [] => none
  | x :: p =>
    if x = 0 then some (if c = 0 then some 0 else none)
    else
      match strrchr c p with
      | none => none
      | some (some k) => some (some (k + 1))
      | some none => some (if x = c then some 0 else none)

def memcpy (dst src : Bytes) (n : Nat) : Option Bytes :=
  if n ≤ dst.length ∧ n ≤ src.length then some (src.take n ++ dst.drop n) else none

/-- `snprintf` of the characters `text`: as many of them as leave room for the NUL. -/
def snprintf (p : Bytes) (size : Nat) (text : Bytes) : Option Bytes :=
  if size = 0 then some p
  else memcpy p (text.take (size - 1) ++ [0]) (min (size - 1) text.length + 1)

section

variable {s : Bytes} (rest : Bytes)

theorem strlen_text (hs : 0 ∉ s) : strlen (s ++ 0 :: rest) = some s.length := by
  induction s with
  | nil => rfl
  | cons x s ih =>
    rw [List.mem_cons, not_or] at hs
    rw [List.cons_append, strlen, if_neg (Ne.symm hs.1), ih hs.2]
    rfl

theorem strrchr_none {c : Byte} (hc : c ≠ 0) (hs : 0 ∉ s) (hcs : c ∉ s) :
    strrchr c (s ++ 0 :: rest) = some none := by
  induction s with
  | nil => rw [List.nil_append, strrchr, if_pos rfl, if_neg hc]
  | cons x s ih =>
    rw [List.mem_cons, not_or] at hs hcs
    rw [List.cons_append, strrchr, if_neg (Ne.symm hs.1), ih hs.2 hcs.2]
    simp only [if_neg (Ne.symm hcs.1)]

theorem strrchr_last {c : Byte} {a b : Bytes} (hc : c ≠ 0) (ha : 0 ∉ a) (hb : 0 ∉ b)
    (hcb : c ∉ b) : strrchr c (a ++ c :: b ++ 0 :: rest) = some (some a.length) := by
  induction a with
  | nil =>
    rw [List.nil_append, List.cons_append, strrchr, if_neg hc, strrchr_none rest hc hb hcb]
    simp only [if_true]
    rfl
  | cons x a ih =>
    rw [List.mem_cons, not_or] at ha
    rw [List.cons_append, List.cons_append, strrchr, if_neg (Ne.symm ha.1), ih ha.2]
    rfl

theorem exists_last {c : Byte} (h : c ∈ s) : ∃ a b, s = a ++ c :: b ∧ c ∉ b := by
  obtain ⟨a, b, hs, hc⟩ := List.eq_append_cons_of_mem (List.mem_reverse.mpr h)
  refine ⟨b.reverse, a.reverse, ?_, by rwa [List.mem_reverse]⟩
  rw [← s.reverse_reverse, hs]
  simp

end

theorem snprintf_fits {p text : Bytes} {size : Nat} (hsize : text.length < size)
    (hp : size ≤ p.length) :
    snprintf p size text = some (text ++ 0 :: p.drop (text.length + 1)) := by
  have htake : text.take (size - 1) = text := List.take_of_length_le (by omega)
  have hmin : min (size - 1) text.length + 1 = (text ++ [0]).length := by
    rw [List.length_append, List.length_singleton]
    omega
  rw [snprintf, if_neg (by omega), htake, hmin, memcpy, if_pos ⟨by omega, le_refl _⟩,
    List.take_length, List.append_assoc, List.length_append, List.length_singleton]
  rfl

end Lib
end LLNStack
