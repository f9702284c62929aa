import LLNStack.Lib.CString

/-!
# LLNStack.Lib.Strtol

`strtol` of the C standard, for bases up to 36 and a 64-bit `long`, and the printing of numbers that
it reads back.

* `IntLiteral`: white space, a sign, for base 16 the mark `0x`, and digits.
* `strtol_text`: on a literal that is not continued, `strtol` returns its value and its end.
* `strtol_cases`: on any text it returns the value and the end of a literal that the text begins
  with and that is not continued, or else 0 and the start.
* `IntLiteral.ofNat`: the numerals of `%d` and `%02x` are literals of the numbers printed.
* `Fields`: bytes written as literals with a separator between them.
-/

namespace LLNStack
namespace Lib

/-! ## Characters -/

def isSpace (c : Byte) : Bool := c = ascii ' ' || 9 ≤ c.toNat && c.toNat ≤ 13

/-- Letters of either case are the digits from ten on. -/
def digitValue (c : Byte) : Option Nat :=
  if 48 ≤ c.toNat ∧ c.toNat ≤ 57 then some (c.toNat - 48)
  else if 97 ≤ c.toNat ∧ c.toNat ≤ 122 then some (c.toNat - 87)
  else if 65 ≤ c.toNat ∧ c.toNat ≤ 90 then some (c.toNat - 55)
  else none

def isDigit (base : Nat) (c : Byte) : Bool := (digitValue c).any (· < base)

/-- The value of a string of digits, the most significant first. -/
def digitsValue (base : Nat) (ds : Bytes) : Nat :=
  Nat.ofDigits base (ds.reverse.map fun c => (digitValue c).getD 0)

inductive Sign where
  | absent
  | plus
  | minus
  deriving DecidableEq, Repr

namespace Sign

def text : Sign → Bytes
  | .absent => []
  | .plus => [ascii '+']
  | .minus => [ascii '-']

def apply : Sign → Nat → Int
  | .minus, n => -n
  | _, n => n

end Sign

/-- `LONG_MAX` or `LONG_MIN` for what is out of range. -/
def clampLong (v : Int) : Int := max (-2 ^ 63) (min v (2 ^ 63 - 1))

structure IntLiteral (base : Nat) where
  spaces : Bytes
  sign : Sign
  mark : Bytes
  digits : Bytes
  spaces_ok : ∀ c ∈ spaces, isSpace c = true
  mark_ok : mark = [] ∨ base = 16 ∧ (mark = [ascii '0', ascii 'x'] ∨ mark = [ascii '0', ascii 'X'])
  digits_ne : digits ≠ []
  digits_ok : ∀ c ∈ digits, isDigit base c = true

namespace IntLiteral

def text {base : Nat} (l : IntLiteral base) : Bytes :=
  l.spaces ++ (l.sign.text ++ (l.mark ++ l.digits))

def value {base : Nat} (l : IntLiteral base) : Int :=
  clampLong (l.sign.apply (digitsValue base l.digits))

end IntLiteral

/-! ## The function -/

/-- The characters from `p` on that satisfy `f`, and the pointer to the first that does not. -/
def scan (f : Byte → Bool) : Bytes → Option (Bytes × Bytes)
  | [] => none
  | c :: p => if f c then (scan f p).map fun r => (c :: r.1, r.2) else some ([], c :: p)

def readSign : Bytes → Sign × Bytes
  | [] => (.absent, [])
  | c :: p =>
    if c = ascii '+' then (.plus, p)
    else if c = ascii '-' then (.minus, p)
    else (.absent, c :: p)

/-- Whether there is a mark `0x` with a digit after it: of `0xg` just the `0` is read. A character
is looked at only if those before it fit. -/
def atMark (p : Bytes) : Option Bool :=
  match p[0]? with
  | none => none
  | some c₀ =>
    if c₀ = ascii '0' then
      match p[1]? with
      | none => none
      | some c₁ =>
        if c₁ = ascii 'x' ∨ c₁ = ascii 'X' then p[2]?.map (isDigit 16) else some false
    else some false

def skipMark (base : Nat) (p : Bytes) : Option Bytes :=
  if base = 16 then (atMark p).map fun mark => if mark then p.drop 2 else p else some p

def strtol (base : Nat) (p : Bytes) : Option (Int × Bytes) :=
  match scan isSpace p with
  | none => none
  | some (_, p₁) =>
    match skipMark base (readSign p₁).2 with
    | none => none
    | some p₂ =>
      match scan (isDigit base) p₂ with
      | none => none
      | some (digits, ep) =>
        if digits = [] then some (0, p)
        else some (clampLong ((readSign p₁).1.apply (digitsValue base digits)), ep)

/-! ## On literals -/

theorem digitValue_range {c : Byte} (h : (digitValue c).isSome = true) :
    48 ≤ c.toNat ∧ c.toNat ≤ 57 ∨ 97 ≤ c.toNat ∧ c.toNat ≤ 122 ∨
      65 ≤ c.toNat ∧ c.toNat ≤ 90 := by
  unfold digitValue at h
  split at h
  · omega
  · split at h
    · omega
    · split at h
      · omega
      · cases h

theorem digitValue_of_isDigit {base : Nat} {c : Byte} (h : isDigit base c = true) :
    (digitValue c).isSome = true := by
  unfold isDigit at h
  cases hd : digitValue c with
  | none => rw [hd] at h; cases h
  | some d => rfl

theorem digit_starts {c : Byte} (h : (digitValue c).isSome = true) :
    isSpace c = false ∧ c ≠ ascii '+' ∧ c ≠ ascii '-' := by
  have hrange := digitValue_range h
  have hspace : (ascii ' ').toNat = 32 := by decide
  have hplus : (ascii '+').toNat = 43 := by decide
  have hminus : (ascii '-').toNat = 45 := by decide
  refine ⟨?_, ?_, ?_⟩
  · by_contra hs
    simp only [isSpace, Bool.not_eq_false, Bool.or_eq_true, Bool.and_eq_true,
      decide_eq_true_eq] at hs
    rcases hs with rfl | hs
    · omega
    · omega
  · rintro rfl
    omega
  · rintro rfl
    omega

theorem digit_ne_mark {base : Nat} {c : Byte} (hbase : base = 16) (h : isDigit base c = true) :
    c ≠ ascii 'x' ∧ c ≠ ascii 'X' := by
  subst hbase
  constructor
  · rintro rfl
    exact absurd h (by decide)
  · rintro rfl
    exact absurd h (by decide)

theorem scan_append {f : Byte → Bool} {xs t : Bytes} {c : Byte} (hxs : ∀ x ∈ xs, f x = true)
    (hc : f c = false) : scan f (xs ++ c :: t) = some (xs, c :: t) := by
  induction xs with
  | nil => simp [scan, hc]
  | cons x xs ih =>
    rw [List.forall_mem_cons] at hxs
    simp [scan, hxs.1, ih hxs.2]

theorem readSign_append (sign : Sign) {c : Byte} (hc : c ≠ ascii '+' ∧ c ≠ ascii '-')
    (p : Bytes) : readSign (sign.text ++ c :: p) = (sign, c :: p) := by
  cases sign with
  | absent => simp [readSign, Sign.text, hc]
  | plus => simp [readSign, Sign.text]
  | minus => simp [readSign, Sign.text, show ascii '-' ≠ ascii '+' by decide]

namespace IntLiteral

variable {base : Nat} (l : IntLiteral base)

theorem exists_cons : ∃ c p, l.mark ++ l.digits = c :: p ∧ (digitValue c).isSome = true := by
  rcases l.mark_ok with hm | ⟨-, hm | hm⟩
  · obtain ⟨c, p, hd⟩ := List.exists_cons_of_ne_nil l.digits_ne
    refine ⟨c, p, by rw [hm, hd]; rfl, digitValue_of_isDigit (l.digits_ok c ?_)⟩
    rw [hd]
    exact List.mem_cons_self
  · exact ⟨ascii '0', ascii 'x' :: l.digits, by rw [hm]; rfl, by decide⟩
  · exact ⟨ascii '0', ascii 'X' :: l.digits, by rw [hm]; rfl, by decide⟩

theorem text_ne_nil : l.text ≠ [] := by
  obtain ⟨c, p, hcons, -⟩ := l.exists_cons
  simp [text, hcons]

/-- Without a mark, `0x` is not read as one: an `x` is no digit. -/
theorem skipMark_eq {c : Byte} (hx : base = 16 → c ≠ ascii 'x' ∧ c ≠ ascii 'X') (t : Bytes) :
    skipMark base (l.mark ++ (l.digits ++ c :: t)) = some (l.digits ++ c :: t) := by
  obtain ⟨d, ds, hd⟩ := List.exists_cons_of_ne_nil l.digits_ne
  have hdigits := l.digits_ok
  rw [hd, List.forall_mem_cons] at hdigits
  rw [hd]
  rcases l.mark_ok with hm | ⟨hbase, hm | hm⟩
  · rw [hm, List.nil_append]
    by_cases hbase : base = 16
    · cases ds with
      | nil => simp [skipMark, atMark, hx hbase]
      | cons d' ds =>
        have hd' := digit_ne_mark hbase (hdigits.2 d' List.mem_cons_self)
        simp [skipMark, atMark, hd']
    · simp [skipMark, hbase]
  · have hfirst := hdigits.1
    rw [hbase] at hfirst
    simp [skipMark, atMark, hm, hbase, hfirst]
  · have hfirst := hdigits.1
    rw [hbase] at hfirst
    simp [skipMark, atMark, hm, hbase, hfirst]

end IntLiteral

theorem strtol_text {base : Nat} (l : IntLiteral base) {c : Byte} (hc : isDigit base c = false)
    (hx : base = 16 → c ≠ ascii 'x' ∧ c ≠ ascii 'X') (t : Bytes) :
    strtol base (l.text ++ c :: t) = some (l.value, c :: t) := by
  obtain ⟨d, p, hcons, hd⟩ := l.exists_cons
  obtain ⟨hspace, hsign⟩ := digit_starts hd
  have hbody : l.mark ++ (l.digits ++ c :: t) = d :: (p ++ c :: t) := by
    rw [← List.append_assoc, hcons]
    rfl
  have hread : readSign (l.sign.text ++ (l.mark ++ (l.digits ++ c :: t))) =
      (l.sign, l.mark ++ (l.digits ++ c :: t)) := by
    rw [hbody]
    exact readSign_append l.sign hsign _
  have hscan : scan isSpace (l.text ++ c :: t) =
      some (l.spaces, l.sign.text ++ (l.mark ++ (l.digits ++ c :: t))) := by
    have htext : l.text ++ c :: t =
        l.spaces ++ (l.sign.text ++ (l.mark ++ (l.digits ++ c :: t))) := by
      simp only [IntLiteral.text, List.append_assoc]
    rw [htext]
    cases hs : l.sign with
    | absent =>
      rw [hbody]
      exact scan_append l.spaces_ok hspace
    | plus => exact scan_append l.spaces_ok (by decide)
    | minus => exact scan_append l.spaces_ok (by decide)
  have hdigits : scan (isDigit base) (l.digits ++ c :: t) = some (l.digits, c :: t) :=
    scan_append l.digits_ok hc
  simp only [strtol, hscan, hread, l.skipMark_eq hx t, hdigits, if_neg l.digits_ne]
  rfl

/-! ## On any text -/

section

variable (s rest : Bytes)

theorem scan_text {f : Byte → Bool} (h0 : f 0 = false) :
    ∃ xs t, s = xs ++ t ∧ scan f (s ++ 0 :: rest) = some (xs, t ++ 0 :: rest) ∧
      (∀ c ∈ xs, f c = true) ∧ ∀ c ∈ t.head?, f c = false := by
  induction s with
  | nil => exact ⟨[], [], rfl, by rw [List.nil_append, scan, h0]; rfl, by simp, by simp⟩
  | cons c s ih =>
    by_cases hc : f c = true
    · obtain ⟨xs, t, rfl, hscan, hxs, ht⟩ := ih
      refine ⟨c :: xs, t, rfl, ?_, List.forall_mem_cons.mpr ⟨hc, hxs⟩, ht⟩
      rw [List.cons_append, scan, if_pos hc, hscan]
      rfl
    · refine ⟨[], c :: s, rfl, by simp [scan, hc], by simp, ?_⟩
      simpa using hc

theorem readSign_text : ∃ sign t, s = sign.text ++ t ∧
    readSign (s ++ 0 :: rest) = (sign, t ++ 0 :: rest) := by
  cases s with
  | nil => exact ⟨.absent, [], rfl, rfl⟩
  | cons c s =>
    by_cases hplus : c = ascii '+'
    · exact ⟨.plus, s, by rw [hplus]; rfl, by simp [readSign, hplus]⟩
    · by_cases hminus : c = ascii '-'
      · exact ⟨.minus, s, by rw [hminus]; rfl, by
          simp [readSign, hminus, show ascii '-' ≠ ascii '+' by decide]⟩
      · exact ⟨.absent, c :: s, rfl, by simp [readSign, hplus, hminus]⟩

theorem atMark_text : ∃ mark, atMark (s ++ 0 :: rest) = some mark ∧
    (mark = true → ∃ c t, s = ascii '0' :: c :: t ∧ (c = ascii 'x' ∨ c = ascii 'X')) := by
  have hzero : (0#8 : Byte) ≠ ascii '0' ∧ (0#8 : Byte) ≠ ascii 'x' ∧ (0#8 : Byte) ≠ ascii 'X' := by
    decide
  have hend : isDigit 16 0#8 = false := rfl
  rcases s with _ | ⟨c₀, s⟩
  · exact ⟨false, by simp [atMark, hzero], by simp⟩
  · by_cases hc₀ : c₀ = ascii '0'
    · rcases s with _ | ⟨c₁, s⟩
      · exact ⟨false, by simp [atMark, hc₀, hzero], by simp⟩
      · by_cases hc₁ : c₁ = ascii 'x' ∨ c₁ = ascii 'X'
        · rcases s with _ | ⟨c₂, s⟩
          · exact ⟨false, by simp [atMark, hc₀, hc₁, hend], by simp⟩
          · exact ⟨isDigit 16 c₂, by simp [atMark, hc₀, hc₁], fun _ => ⟨c₁, _, by rw [hc₀], hc₁⟩⟩
        · exact ⟨false, by simp [atMark, hc₀, hc₁], by simp⟩
    · exact ⟨false, by simp [atMark, hc₀], by simp⟩

theorem skipMark_text (base : Nat) : ∃ mark t, s = mark ++ t ∧
    skipMark base (s ++ 0 :: rest) = some (t ++ 0 :: rest) ∧
    (mark = [] ∨ base = 16 ∧ (mark = [ascii '0', ascii 'x'] ∨ mark = [ascii '0', ascii 'X'])) := by
  by_cases hbase : base = 16
  · obtain ⟨mark, hat, hs⟩ := atMark_text s rest
    cases mark with
    | false => exact ⟨[], s, rfl, by rw [skipMark, if_pos hbase, hat]; rfl, .inl rfl⟩
    | true =>
      obtain ⟨c, t, rfl, hc⟩ := hs rfl
      refine ⟨[ascii '0', c], t, rfl, by rw [skipMark, if_pos hbase, hat]; rfl, .inr ⟨hbase, ?_⟩⟩
      simpa using hc
  · exact ⟨[], s, rfl, by rw [skipMark, if_neg hbase], .inl rfl⟩

end

theorem strtol_cases (base : Nat) (s rest : Bytes) :
    ∃ v t, strtol base (s ++ 0 :: rest) = some (v, t ++ 0 :: rest) ∧
      (t = s ∧ v = 0 ∨ ∃ l : IntLiteral base, s = l.text ++ t ∧ v = l.value ∧
        ∀ c ∈ t.head?, isDigit base c = false) := by
  obtain ⟨spaces, s₁, rfl, hscan, hspaces, -⟩ := scan_text s rest (f := isSpace) (by decide)
  obtain ⟨sign, s₂, rfl, hsign⟩ := readSign_text s₁ rest
  obtain ⟨mark, s₃, rfl, hskip, hmark⟩ := skipMark_text s₂ rest base
  obtain ⟨digits, t, rfl, hdigits, hok, ht⟩ := scan_text s₃ rest (f := isDigit base) rfl
  by_cases hd : digits = []
  · refine ⟨0, _, ?_, .inl ⟨rfl, rfl⟩⟩
    simp only [strtol, hscan, hsign, hskip, hdigits, if_pos hd]
  · refine ⟨_, t, ?_, .inr ⟨⟨spaces, sign, mark, digits, hspaces, hmark, hd, hok⟩, ?_, rfl, ht⟩⟩
    · simp only [strtol, hscan, hsign, hskip, hdigits, if_neg hd]
      rfl
    · simp only [IntLiteral.text, List.append_assoc]

/-- Where base 16 has its mark, another base needs nothing but the end of the digits. -/
theorem strtol_longest {base : Nat} (hbase : base ≠ 16) (l : IntLiteral base) {t : Bytes}
    (ht : ∀ c ∈ t.head?, isDigit base c = false) (rest : Bytes) :
    strtol base (l.text ++ t ++ 0 :: rest) = some (l.value, t ++ 0 :: rest) := by
  rw [List.append_assoc]
  cases t with
  | nil => exact strtol_text l rfl (fun h => absurd h hbase) rest
  | cons c t => exact strtol_text l (ht c rfl) (fun h => absurd h hbase) (t ++ 0 :: rest)

/-! ## Printed numbers -/

def digitChar (d : Nat) : Byte := BitVec.ofNat 8 (if d < 10 then 48 + d else 87 + d)

/-- The digits of `n`, with leading zeros if they are fewer than `width`. -/
def printNat (base width n : Nat) : Bytes :=
  ((Nat.digits base n).reverse.leftpad width 0).map digitChar

theorem digitValue_digitChar {d : Nat} (h : d < 36) : digitValue (digitChar d) = some d := by
  by_cases hd : d < 10
  · have hnat : (digitChar d).toNat = 48 + d := by
      rw [digitChar, if_pos hd, BitVec.toNat_ofNat]
      omega
    rw [digitValue, if_pos (by omega), hnat, Nat.add_sub_cancel_left]
  · have hnat : (digitChar d).toNat = 87 + d := by
      rw [digitChar, if_neg hd, BitVec.toNat_ofNat]
      omega
    rw [digitValue, if_neg (by omega), if_pos (by omega), hnat, Nat.add_sub_cancel_left]

theorem length_printNat_le {base : Nat} (hbase : 1 < base) {width k : Nat} (hwidth : width ≤ k)
    {n : Nat} (hn : n < base ^ k) : (printNat base width n).length ≤ k := by
  have hlen := (Nat.digits_length_le_iff hbase n).mpr hn
  rw [printNat, List.length_map, List.length_leftpad, List.length_reverse]
  omega

section

variable {base : Nat} (hbase : 1 < base) (hmax : base ≤ 36) (width n : Nat)
include hbase hmax

theorem digitValue_printed : ∀ d ∈ (Nat.digits base n).reverse.leftpad width 0,
    d < base ∧ digitValue (digitChar d) = some d := by
  intro d hd
  have hlt : d < base := by
    rcases List.mem_append.mp hd with hd | hd
    · rw [(List.mem_replicate.mp hd).2]
      omega
    · exact Nat.digits_lt_base hbase (List.mem_reverse.mp hd)
  exact ⟨hlt, digitValue_digitChar (by omega)⟩

theorem isDigit_printNat : ∀ c ∈ printNat base width n, isDigit base c = true := by
  intro c hc
  obtain ⟨d, hd, rfl⟩ := List.mem_map.mp hc
  obtain ⟨hlt, hval⟩ := digitValue_printed hbase hmax width n d hd
  simpa [isDigit, hval] using hlt

theorem digitsValue_printNat : digitsValue base (printNat base width n) = n := by
  have hread : (printNat base width n).map (fun c => (digitValue c).getD 0) =
      (Nat.digits base n).reverse.leftpad width 0 := by
    rw [printNat, List.map_map]
    conv_rhs => rw [← List.map_id ((Nat.digits base n).reverse.leftpad width 0)]
    refine List.map_congr_left fun d hd => ?_
    simp [(digitValue_printed hbase hmax width n d hd).2]
  rw [digitsValue, List.map_reverse, hread, List.leftpad, List.reverse_append,
    List.reverse_reverse, List.reverse_replicate, Nat.ofDigits_append_replicate_zero,
    Nat.ofDigits_digits]

def IntLiteral.ofNat (hwidth : 0 < width) : IntLiteral base where
  spaces := []
  sign := .absent
  mark := []
  digits := printNat base width n
  spaces_ok := by simp
  mark_ok := .inl rfl
  digits_ne := by
    intro h
    have hlen := congrArg List.length h
    rw [printNat, List.length_map, List.length_leftpad, List.length_nil] at hlen
    omega
  digits_ok := isDigit_printNat hbase hmax width n

theorem IntLiteral.value_ofNat (hwidth : 0 < width) (hn : n < 2 ^ 63) :
    (IntLiteral.ofNat hbase hmax width n hwidth).value = n := by
  have hval : (IntLiteral.ofNat hbase hmax width n hwidth).value =
      clampLong (digitsValue base (printNat base width n)) := rfl
  rw [hval, digitsValue_printNat hbase hmax, clampLong]
  omega

end

/-! ## Octets in a row -/

def IntLiteral.IsOctet {base : Nat} (l : IntLiteral base) : Prop := 0 ≤ l.value ∧ l.value ≤ 255

/-- The text is the literals `ls`, each the value of a byte, with one `sep` between two of them. -/
inductive Fields (base : Nat) (sep : Byte) : List (IntLiteral base) → Bytes → Prop where
  | last {l : IntLiteral base} : l.IsOctet → Fields base sep [l] l.text
  | cons {l : IntLiteral base} {ls : List (IntLiteral base)} {s : Bytes} : l.IsOctet →
      Fields base sep ls s → Fields base sep (l :: ls) (l.text ++ sep :: s)

def octets {base : Nat} (ls : List (IntLiteral base)) : Bytes :=
  ls.map fun l => BitVec.ofInt 8 l.value

/-- Read `k` octets with `sep` between them and the NUL after them. The inner `none` is a text that
is rejected. -/
def readFields (base : Nat) (sep : Byte) : Nat → Bytes → Option (Option Bytes)
  | 0, _ => some (some [])
  | k + 1, p =>
    match strtol base p with
    | none => none
    | some (v, ep) =>
      if v < 0 ∨ 255 < v ∨ ep = p then some none
      else
        match ep with
        | [] => none
        | c :: next =>
          if k = 0 ∧ c ≠ 0 ∨ k ≠ 0 ∧ c ≠ sep then some none
          else (readFields base sep k next).map (Option.map (BitVec.ofInt 8 v :: ·))

section

variable {base : Nat} {sep : Byte}

theorem readFields_succ {k : Nat} {p next : Bytes} {v : Int} {c : Byte}
    (hv : strtol base p = some (v, c :: next)) (hrej : ¬ (v < 0 ∨ 255 < v ∨ c :: next = p)) :
    readFields base sep (k + 1) p =
      if k = 0 ∧ c ≠ 0 ∨ k ≠ 0 ∧ c ≠ sep then some none
      else (readFields base sep k next).map (Option.map (BitVec.ofInt 8 v :: ·)) := by
  rw [readFields, hv]
  simp only [if_neg hrej]

theorem IntLiteral.IsOctet.accepted {l : IntLiteral base} (hl : l.IsOctet) (p : Bytes) :
    ¬ (l.value < 0 ∨ 255 < l.value ∨ p = l.text ++ p) := by
  rintro (hneg | hbig | hsame)
  · exact absurd hl.1 (by omega)
  · exact absurd hl.2 (by omega)
  · exact l.text_ne_nil (List.self_eq_append_left.mp hsame)

theorem Fields.length_ne_zero {ls : List (IntLiteral base)} {s : Bytes}
    (h : Fields base sep ls s) : ls.length ≠ 0 := by
  cases h with
  | last _ => simp
  | cons _ _ => simp

theorem Fields.readFields {ls : List (IntLiteral base)} {s : Bytes} (h : Fields base sep ls s)
    (hsep : isDigit base sep = false) (hx : sep ≠ ascii 'x' ∧ sep ≠ ascii 'X') (rest : Bytes) :
    Lib.readFields base sep ls.length (s ++ 0 :: rest) = some (some (octets ls)) := by
  induction h with
  | @last l hl =>
    have hv := strtol_text l (c := 0) rfl (fun _ => by decide) rest
    rw [List.length_singleton, readFields_succ hv (hl.accepted _), if_neg (by simp)]
    rfl
  | @cons l ls s hl h ih =>
    have hv := strtol_text l hsep (fun _ => hx) (s ++ 0 :: rest)
    have hlen := h.length_ne_zero
    rw [List.append_assoc, List.cons_append, List.length_cons,
      readFields_succ hv (hl.accepted _), if_neg (by simp [hlen]), ih]
    rfl

section

variable (base sep)

theorem readFields_round (hne : sep ≠ 0) (k : Nat) {s : Bytes} (hs : 0 ∉ s) (rest : Bytes) :
    Lib.readFields base sep (k + 1) (s ++ 0 :: rest) = some none ∨
    ∃ l : IntLiteral base, l.IsOctet ∧
      (k = 0 ∧ s = l.text ∧ Lib.readFields base sep (k + 1) (s ++ 0 :: rest) =
          some (some [BitVec.ofInt 8 l.value]) ∨
        k ≠ 0 ∧ ∃ s', s = l.text ++ sep :: s' ∧
          Lib.readFields base sep (k + 1) (s ++ 0 :: rest) =
            (Lib.readFields base sep k (s' ++ 0 :: rest)).map
              (Option.map (BitVec.ofInt 8 l.value :: ·))) := by
  obtain ⟨v, t, hv, hcases⟩ := strtol_cases base s rest
  by_cases hrej : v < 0 ∨ 255 < v ∨ t ++ 0 :: rest = s ++ 0 :: rest
  · exact .inl (by simp only [Lib.readFields, hv, if_pos hrej])
  · rcases hcases with ⟨rfl, -⟩ | ⟨l, rfl, rfl, -⟩
    · exact absurd (.inr (.inr rfl)) hrej
    · have hl : l.IsOctet := ⟨by omega, by omega⟩
      cases t with
      | nil =>
        rw [List.append_nil] at hv hrej ⊢
        by_cases hk : k = 0
        · refine .inr ⟨l, hl, .inl ⟨hk, rfl, ?_⟩⟩
          subst hk
          rw [readFields_succ hv hrej, if_neg (by simp)]
          rfl
        · exact .inl (by rw [readFields_succ hv hrej, if_pos (.inr ⟨hk, hne.symm⟩)])
      | cons c t =>
        have hc : c ≠ 0 := by
          rintro rfl
          simp at hs
        by_cases htest : k = 0 ∧ c ≠ 0 ∨ k ≠ 0 ∧ c ≠ sep
        · exact .inl (by rw [readFields_succ hv hrej, if_pos htest])
        · obtain ⟨hk, rfl⟩ : k ≠ 0 ∧ c = sep := by tauto
          refine .inr ⟨l, hl, .inr ⟨hk, t, rfl, ?_⟩⟩
          rw [readFields_succ hv hrej, if_neg htest]
          rfl

theorem readFields_text (hne : sep ≠ 0) (k : Nat) {s : Bytes} (hs : 0 ∉ s) (rest : Bytes) :
    ∃ r, Lib.readFields base sep (k + 1) (s ++ 0 :: rest) = some r ∧
      ∀ bs, r = some bs → ∃ ls, ls.length = k + 1 ∧ Fields base sep ls s ∧ octets ls = bs := by
  induction k generalizing s with
  | zero =>
    obtain h | ⟨l, hl, ⟨-, rfl, h⟩ | ⟨hk, -⟩⟩ := readFields_round base sep hne 0 hs rest
    · exact ⟨none, h, by simp⟩
    · refine ⟨_, h, fun bs hbs => ⟨[l], rfl, .last hl, ?_⟩⟩
      exact Option.some.inj hbs
    · exact absurd rfl hk
  | succ k ih =>
    obtain h | ⟨l, hl, ⟨hk, -⟩ | ⟨-, s', rfl, h⟩⟩ :=
      readFields_round base sep hne (k + 1) hs rest
    · exact ⟨none, h, by simp⟩
    · cases hk
    · rw [List.mem_append, List.mem_cons, not_or, not_or] at hs
      obtain ⟨r, hr, hfields⟩ := ih hs.2.2
      rw [hr] at h
      refine ⟨_, h, fun bs hbs => ?_⟩
      obtain ⟨bs', hbs', rfl⟩ := Option.map_eq_some_iff.mp hbs
      obtain ⟨ls, hlen, hls, rfl⟩ := hfields bs' hbs'
      exact ⟨l :: ls, by rw [List.length_cons, hlen], .cons hl hls, rfl⟩

theorem readFields_iff (hne : sep ≠ 0) (hsep : isDigit base sep = false)
    (hx : sep ≠ ascii 'x' ∧ sep ≠ ascii 'X') (k : Nat) {s : Bytes} (hs : 0 ∉ s) (rest bs : Bytes) :
    Lib.readFields base sep (k + 1) (s ++ 0 :: rest) = some (some bs) ↔
      ∃ ls, ls.length = k + 1 ∧ Fields base sep ls s ∧ octets ls = bs := by
  constructor
  · intro h
    obtain ⟨r, hr, hfields⟩ := readFields_text base sep hne k hs rest
    exact hfields bs (Option.some.inj (hr.symm.trans h))
  · rintro ⟨ls, hlen, hls, rfl⟩
    rw [← hlen]
    exact hls.readFields hsep hx rest

end

theorem IntLiteral.zero_notMem (l : IntLiteral base) : 0 ∉ l.text := by
  simp only [IntLiteral.text, List.mem_append, not_or]
  refine ⟨fun h => ?_, ?_, ?_, fun h => ?_⟩
  · exact absurd (l.spaces_ok 0 h) (by decide)
  · cases l.sign <;> decide
  · rcases l.mark_ok with hm | ⟨-, hm | hm⟩ <;> rw [hm] <;> decide
  · exact absurd (l.digits_ok 0 h) (by simp [isDigit, digitValue])

theorem Fields.zero_notMem {ls : List (IntLiteral base)} {s : Bytes} (h : Fields base sep ls s)
    (hne : sep ≠ 0) : 0 ∉ s := by
  induction h with
  | @last l _ => exact l.zero_notMem
  | @cons l ls s _ _ ih =>
    rw [List.mem_append, List.mem_cons, not_or, not_or]
    exact ⟨l.zero_notMem, hne.symm, ih⟩

def printFields (base width : Nat) (sep : Byte) (bs : Bytes) : Bytes :=
  [sep].intercalate (bs.map fun b => printNat base width b.toNat)

theorem exists_octet (hbase : 1 < base) (hmax : base ≤ 36) {width : Nat} (hwidth : 0 < width)
    (b : Byte) : ∃ l : IntLiteral base, l.text = printNat base width b.toNat ∧ l.IsOctet ∧
      BitVec.ofInt 8 l.value = b := by
  have hb := b.isLt
  have hval := IntLiteral.value_ofNat hbase hmax width b.toNat hwidth (by omega)
  refine ⟨.ofNat hbase hmax width b.toNat hwidth, rfl, ?_, ?_⟩
  · rw [IntLiteral.IsOctet, hval]
    omega
  · rw [hval, BitVec.ofInt_natCast, BitVec.ofNat_toNat, BitVec.setWidth_eq]

theorem fields_printFields (sep : Byte) (hbase : 1 < base) (hmax : base ≤ 36) {width : Nat}
    (hwidth : 0 < width) {bs : Bytes} (hbs : bs ≠ []) :
    ∃ ls, octets ls = bs ∧ Fields base sep ls (printFields base width sep bs) := by
  induction bs with
  | nil => exact absurd rfl hbs
  | cons b bs ih =>
    obtain ⟨l, htext, hl, hval⟩ := exists_octet hbase hmax hwidth b
    cases bs with
    | nil =>
      refine ⟨[l], by simp [octets, hval], ?_⟩
      rw [printFields, List.map_singleton, List.intercalate_singleton, ← htext]
      exact .last hl
    | cons b' bs =>
      obtain ⟨ls, hls, hfields⟩ := ih (List.cons_ne_nil _ _)
      refine ⟨l :: ls, by rw [← hls, ← hval]; rfl, ?_⟩
      rw [printFields, List.map_cons, List.map_cons, List.intercalate_cons_cons, ← htext,
        List.append_assoc]
      exact .cons hl hfields

theorem length_printFields_lt (sep : Byte) (hbase : 1 < base) {width w : Nat} (hwidth : width ≤ w)
    (hw : 256 ≤ base ^ w) {bs : Bytes} (hbs : bs ≠ []) :
    (printFields base width sep bs).length < bs.length * (w + 1) := by
  have hpiece : ∀ b : Byte, (printNat base width b.toNat).length ≤ w := fun b =>
    length_printNat_le hbase hwidth (Nat.lt_of_lt_of_le b.isLt hw)
  induction bs with
  | nil => exact absurd rfl hbs
  | cons b bs ih =>
    have hb := hpiece b
    cases bs with
    | nil =>
      rw [printFields, List.map_singleton, List.intercalate_singleton, List.length_singleton]
      omega
    | cons b' bs =>
      have hrest := ih (List.cons_ne_nil _ _)
      rw [printFields, List.map_cons] at hrest
      rw [printFields, List.map_cons, List.map_cons, List.intercalate_cons_cons,
        List.length_append, List.length_append, List.length_singleton, List.length_cons,
        Nat.add_one_mul]
      omega

end

end Lib
end LLNStack
