import Mathlib.Data.List.TakeWhile
import LoadBench.Json.Printer
import LoadBench.Json.Reader
import LoadBench.Proofs.Data.Normal

/-!
# Tokens that are read back

A reader that cuts a text into tokens finds the strings and numbers that were written, whatever
stands behind them, as long as it would not go on with a number.

Results:
* `Quoted.decode?_encode`: a quoted string holds the characters that were written.
* `takeNumber?_append`: where a number ends is settled by the character behind it.
* `takeNumber?_integer`, `takeNumber?_real`: numbers that were written are read back.
* `Lexes`, `Lexes.token`: texts and their tokens, one token at a time.
-/

namespace LoadBench.Json

/-! ## Quoted strings -/

namespace Quoted

/-- The escape of a control character spells its number. -/
theorem unit?_hexDigits {n : Nat} (h : n < 0x20) :
    unit? '0' '0' (hexDigit (n / 16)) (hexDigit (n % 16)) = some n := by
  revert n
  decide

theorem scalar?_toNat (c : Char) : scalar? c.toNat = some c := by
  have hvalid : c.toNat.isValidChar := c.valid
  unfold scalar?
  rw [if_pos hvalid, Char.ofNat_toNat]

/-- One character is read back however it was written. -/
theorem decode?_encodeChar (c : Char) (seen rest : List Char) :
    decode? seen (encodeChar c ++ rest) = decode? (c :: seen) rest := by
  unfold encodeChar
  split_ifs with h₁ h₂ h₃ h₄ h₅ h₆ h₇ hcontrol
  · obtain rfl := eq_of_beq h₁; rfl
  · obtain rfl := eq_of_beq h₂; rfl
  · obtain rfl := eq_of_beq h₃; rfl
  · obtain rfl := eq_of_beq h₄; rfl
  · obtain rfl := eq_of_beq h₅; rfl
  · obtain rfl := eq_of_beq h₆; rfl
  · obtain rfl := eq_of_beq h₇; rfl
  · show decode? seen ('\\' :: 'u' :: '0' :: '0' :: _ :: _ :: rest) = _
    rw [decode?, unit?_hexDigits hcontrol]
    simp only [scalar?_toNat]
    rw [if_neg]
    simp
    omega
  · have hquote : c ≠ '"' := by simpa using h₁
    have hslash : c ≠ '\\' := by simpa using h₂
    show decode? seen (c :: rest) = _
    rw [decode?]
    · rw [if_neg]
      simp [hslash, hcontrol]
    all_goals simp_all

theorem decode?_encode (cs seen rest : List Char) :
    decode? seen (encode cs ++ '"' :: rest) = some (seen.reverse ++ cs, rest) := by
  induction cs generalizing seen with
  | nil => simp [encode, decode?]
  | cons c cs ih =>
    show decode? seen ((encodeChar c ++ encode cs) ++ '"' :: rest) = _
    rw [List.append_assoc, decode?_encodeChar, ih]
    simp

end Quoted

/-! ## Numbers -/

/-- What can stand behind a number: nothing that would go on with it. -/
def endsNumber (rest : List Char) : Bool :=
  rest.head?.all fun c => !c.isDigit && c != '.' && c != 'e' && c != 'E'

section Numbers

variable {cs rest : List Char}

theorem not_isDigit_head (h : endsNumber rest = true) :
    rest.head?.all (!Char.isDigit ·) = true := by
  cases rest with
  | nil => rfl
  | cons c _ => simp_all [endsNumber]

theorem takeWhile_append_of_head {p : Char → Bool} (h : rest.head?.all (!p ·) = true) :
    (cs ++ rest).takeWhile p = cs.takeWhile p := by
  induction cs with
  | nil =>
    cases rest with
    | nil => rfl
    | cons c _ => simp_all
  | cons c cs ih =>
    rw [List.cons_append, List.takeWhile_cons, List.takeWhile_cons, ih]

theorem dropWhile_append_of_head {p : Char → Bool} (h : rest.head?.all (!p ·) = true) :
    (cs ++ rest).dropWhile p = cs.dropWhile p ++ rest := by
  induction cs with
  | nil =>
    cases rest with
    | nil => rfl
    | cons c _ => simp_all
  | cons c cs ih =>
    rw [List.cons_append, List.dropWhile_cons, List.dropWhile_cons, ih]
    split_ifs <;> rfl

theorem takeSign_append (hcs : cs ≠ []) :
    Numeral.takeSign (cs ++ rest) = ((Numeral.takeSign cs).1, (Numeral.takeSign cs).2 ++ rest) := by
  obtain ⟨c, cs, rfl⟩ := List.exists_cons_of_ne_nil hcs
  unfold Numeral.takeSign
  simp only [List.cons_append]
  split <;> simp_all

theorem takeExponent?_append (hrest : endsNumber rest = true) {e : Option Int} {r : List Char}
    (h : takeExponent? cs = some (e, r)) : takeExponent? (cs ++ rest) = some (e, r ++ rest) := by
  have hdigit := not_isDigit_head hrest
  cases cs with
  | nil =>
    obtain ⟨rfl, rfl⟩ : none = e ∧ [] = r := by simpa [takeExponent?] using h
    cases rest with
    | nil => rfl
    | cons c rest =>
      have hmark : ¬ (c == 'e' || c == 'E') = true := by simp_all [endsNumber]
      show takeExponent? (c :: rest) = _
      rw [takeExponent?, if_neg hmark]
      rfl
  | cons c cs =>
    rw [takeExponent?] at h
    rw [List.cons_append, takeExponent?]
    split_ifs at h ⊢ with hmark
    · have hcs : cs ≠ [] := by
        rintro rfl
        simp [Numeral.takeSign] at h
      rw [takeSign_append hcs]
      generalize Numeral.takeSign cs = sign at h
      obtain ⟨negative, ds⟩ := sign
      simp only [takeWhile_append_of_head hdigit, dropWhile_append_of_head hdigit] at h ⊢
      split_ifs at h ⊢ with hempty <;> cases h <;> rfl
    · cases h
      rfl

/-- The sign of a number. -/
def takeMinus : List Char → Bool × List Char
  | '-' :: r => (true, r)
  | r => (false, r)

/-- The digits behind a point, if there is one. -/
def takeFraction? : List Char → Option (Option (List Char) × List Char)
  | '.' :: r =>
    if (r.takeWhile Char.isDigit).isEmpty then none
    else some (some (r.takeWhile Char.isDigit), r.dropWhile Char.isDigit)
  | r => some (none, r)

theorem takeFraction?_of_no_point (h : ∀ r, rest = '.' :: r → False) :
    takeFraction? rest = some (none, rest) := by
  unfold takeFraction?
  split
  next r => exact (h r rfl).elim
  next => rfl

/-- The digits of a whole number, without zeros in front. -/
def isWhole (ds : List Char) : Bool :=
  !(ds.isEmpty || (ds.head? == some '0' && ds.length != 1))

/-- A number behind its sign, part by part. -/
def takeUnsigned? (negative : Bool) (ds : List Char) : Option (Data × List Char) :=
  if isWhole (ds.takeWhile Char.isDigit) then
    (takeFraction? (ds.dropWhile Char.isDigit)).bind fun (fraction, r) =>
      (takeExponent? r).bind fun (exponent, r) =>
        (numberValue? ⟨negative, ds.takeWhile Char.isDigit, fraction.getD [], exponent.getD 0⟩
          (fraction.isNone && exponent.isNone)).bind fun value => some (value, r)
  else none

theorem takeNumber?_eq (cs : List Char) :
    takeNumber? cs = takeUnsigned? (takeMinus cs).1 (takeMinus cs).2 := by
  unfold takeNumber?
  split
  next negative ds hsign =>
    have hminus : takeMinus cs = (negative, ds) := hsign
    rw [hminus]
    unfold takeUnsigned? isWhole
    by_cases hbad : ((ds.takeWhile Char.isDigit).isEmpty ||
        ((ds.takeWhile Char.isDigit).head? == some '0' &&
          (ds.takeWhile Char.isDigit).length != 1)) = true
    · simp only [hbad]
      rfl
    · rw [Bool.not_eq_true] at hbad
      simp only [hbad]
      rw [if_neg Bool.false_ne_true, if_pos Bool.not_false]
      generalize ds.dropWhile Char.isDigit = rest
      split
      next r =>
        rw [takeFraction?]
        split_ifs <;> rfl
      next hpoint =>
        rw [takeFraction?_of_no_point hpoint]
        rfl

theorem takeMinus_append (hcs : cs ≠ []) :
    takeMinus (cs ++ rest) = ((takeMinus cs).1, (takeMinus cs).2 ++ rest) := by
  obtain ⟨c, cs, rfl⟩ := List.exists_cons_of_ne_nil hcs
  unfold takeMinus
  simp only [List.cons_append]
  split <;> simp_all

theorem takeFraction?_append (hrest : endsNumber rest = true) {f : Option (List Char)}
    {r : List Char} (h : takeFraction? cs = some (f, r)) :
    takeFraction? (cs ++ rest) = some (f, r ++ rest) := by
  have hdigit := not_isDigit_head hrest
  cases cs with
  | nil =>
    obtain ⟨rfl, rfl⟩ : none = f ∧ [] = r := by simpa [takeFraction?] using h
    cases rest with
    | nil => rfl
    | cons c rest =>
      have hpoint : c ≠ '.' := by
        rintro rfl
        simp [endsNumber] at hrest
      exact takeFraction?_of_no_point fun _ hs => hpoint (List.cons.inj hs).1
  | cons c cs =>
    by_cases hpoint : c = '.'
    · subst hpoint
      simp only [List.cons_append, takeFraction?] at h ⊢
      rw [takeWhile_append_of_head hdigit, dropWhile_append_of_head hdigit]
      split_ifs at h ⊢
      cases h
      rfl
    · have hnone : ∀ r, takeFraction? (c :: r) = some (none, c :: r) := fun r =>
        takeFraction?_of_no_point fun _ hs => hpoint (List.cons.inj hs).1
      rw [hnone] at h
      cases h
      exact hnone (cs ++ rest)

/-- A number is read in the same way whatever is behind it. -/
theorem takeNumber?_append (hrest : endsNumber rest = true) {v : Data} {r : List Char}
    (h : takeNumber? cs = some (v, r)) : takeNumber? (cs ++ rest) = some (v, r ++ rest) := by
  have hdigit := not_isDigit_head hrest
  have hcs : cs ≠ [] := by
    rintro rfl
    simp [takeNumber?_eq, takeMinus, takeUnsigned?, isWhole] at h
  rw [takeNumber?_eq] at h ⊢
  rw [takeMinus_append hcs]
  generalize takeMinus cs = sign at h
  obtain ⟨negative, ds⟩ := sign
  unfold takeUnsigned? at h ⊢
  rw [takeWhile_append_of_head hdigit, dropWhile_append_of_head hdigit]
  split_ifs at h ⊢ with hwhole
  obtain ⟨⟨fraction, r₁⟩, hfraction, h⟩ := Option.bind_eq_some_iff.mp h
  obtain ⟨⟨exponent, r₂⟩, hexponent, h⟩ := Option.bind_eq_some_iff.mp h
  obtain ⟨value, hvalue, h⟩ := Option.bind_eq_some_iff.mp h
  cases h
  simp only [takeFraction?_append hrest hfraction, takeExponent?_append hrest hexponent, hvalue,
    Option.bind_some]

end Numbers

/-! ## Whole numbers -/

theorem natOfDigits_digitsOf (n : Nat) : natOfDigits (digitsOf n) = n :=
  Nat.ofDigitChars_toDigits (by decide) (by decide)

theorem isDigit_of_mem_digitsOf {n : Nat} {c : Char} (h : c ∈ digitsOf n) : c.isDigit = true :=
  Nat.isDigit_of_mem_toDigits (by decide) (by decide) h

/-- The digits of a positive number have no zeros in front. -/
theorem head?_digitsOf {n : Nat} (hn : 0 < n) : (digitsOf n).head? ≠ some '0' := by
  unfold digitsOf
  induction n using Nat.strongRecOn with
  | ind n ih =>
    by_cases hsmall : n < 10
    · have hchar : ∀ m < 10, 0 < m → m.digitChar ≠ '0' := by decide
      rw [Nat.toDigits_of_lt_base hsmall]
      simpa using hchar n hsmall hn
    · rw [Nat.toDigits_of_base_le (by decide) (by omega),
        List.head?_append_of_ne_nil _ Nat.toDigits_ne_nil]
      exact ih (n / 10) (by omega) (by omega)

theorem isWhole_digitsOf (n : Nat) : isWhole (digitsOf n) = true := by
  rcases Nat.eq_zero_or_pos n with rfl | hn
  · decide
  · have hne : digitsOf n ≠ [] := Nat.toDigits_ne_nil
    unfold isWhole
    simp [hne, head?_digitsOf hn]

theorem takeUnsigned?_digitsOf (negative : Bool) (n : Nat) :
    takeUnsigned? negative (digitsOf n) =
      (numberValue? ⟨negative, digitsOf n, [], 0⟩ true).bind fun value => some (value, []) := by
  have hall : ∀ c ∈ digitsOf n, c.isDigit = true := fun c hc => isDigit_of_mem_digitsOf hc
  unfold takeUnsigned?
  rw [List.takeWhile_eq_self_iff.mpr hall, List.dropWhile_eq_nil_iff.mpr hall,
    if_pos (isWhole_digitsOf n)]
  rfl

theorem takeMinus_digitsOf (n : Nat) : takeMinus (digitsOf n) = (false, digitsOf n) := by
  unfold takeMinus
  split
  · next r hdigits =>
    have hdigit : '-'.isDigit = true := isDigit_of_mem_digitsOf (n := n) (by simp [hdigits])
    cases hdigit
  · rfl

/-- A whole number of word range is read back. -/
theorem takeNumber?_integer {n : Int} (hlow : -(Nat.pow 2 63 : Nat) ≤ n)
    (hhigh : n < Counter.size) :
    takeNumber? (leaf (.integer n)) = some (.integer n, []) := by
  show takeNumber? ((if n < 0 then ['-'] else []) ++ digitsOf n.natAbs) = _
  rw [takeNumber?_eq]
  by_cases hn : n < 0
  · have hmagnitude : 0 < n.natAbs ∧ n.natAbs ≤ Nat.pow 2 63 := by omega
    have hminus : takeMinus ('-' :: digitsOf n.natAbs) = (true, digitsOf n.natAbs) := rfl
    rw [if_pos hn, List.singleton_append, hminus, takeUnsigned?_digitsOf]
    unfold numberValue?
    simp only [natOfDigits_digitsOf]
    rw [if_neg (by simp), if_pos (by simpa using hmagnitude)]
    show some (Data.integer (-(n.natAbs : Int)), []) = _
    rw [Int.ofNat_natAbs_of_nonpos hn.le, neg_neg]
  · have hmagnitude : n.natAbs < Counter.size := by omega
    rw [if_neg hn, List.nil_append, takeMinus_digitsOf, takeUnsigned?_digitsOf]
    unfold numberValue?
    simp only [natOfDigits_digitsOf]
    rw [if_pos (by simpa using hmagnitude)]
    show some (Data.integer (n.natAbs : Int), []) = _
    rw [Int.natAbs_of_nonneg (Int.not_lt.mp hn)]

/-! ## Leaves -/

/-- A finite number is read back from the text that it is written as. -/
def readsBack (x : Float) : Bool :=
  match takeNumber? (NumberFormat.document.render x).toList with
  | some (.real y, []) => x.isFinite && y = x
  | _ => false

/-- A leaf with a form of its own: its whole number is in word range, its other number is finite. -/
def isLeaf : Data → Bool
  | .integer n => -(Nat.pow 2 63 : Nat) ≤ n && n < Counter.size
  | .real x => readsBack x
  | .list _ | .record _ => false
  | _ => true

theorem takeNumber?_real {x : Float} (h : readsBack x = true) :
    takeNumber? (leaf (.real x)) = some (.real x, []) := by
  unfold readsBack at h
  split at h
  · next y hread =>
    simp only [Bool.and_eq_true, decide_eq_true_eq] at h
    obtain ⟨hfinite, rfl⟩ := h
    show takeNumber? (if y.isFinite then _ else _) = _
    rw [if_pos hfinite]
    exact hread
  · cases h

/-- What is read as a number is read as a token. -/
theorem takeToken?_of_takeNumber? {cs r : List Char} {v : Data}
    (h : takeNumber? cs = some (v, r)) : takeToken? cs = some (.leaf v, r) := by
  unfold takeToken?
  split
  case h_11 => rw [h]; rfl
  all_goals simp [takeNumber?_eq, takeMinus, takeUnsigned?, isWhole] at h

theorem takeToken?_quoted (s : String) (rest : List Char) :
    takeToken? (quoted s ++ rest) = some (.leaf (.text s), rest) := by
  show takeToken? ('"' :: (Quoted.encode s.toList ++ ['"']) ++ rest) = _
  rw [List.cons_append, List.append_assoc, List.singleton_append]
  show (Quoted.decode? [] (Quoted.encode s.toList ++ '"' :: rest)).map _ = _
  rw [Quoted.decode?_encode]
  simp

/-- A leaf is read back. -/
theorem takeToken?_leaf {d : Data} (hd : isLeaf d = true) {rest : List Char}
    (hrest : endsNumber rest = true) : takeToken? (leaf d ++ rest) = some (.leaf d, rest) := by
  cases d with
  | null => rfl
  | flag b => cases b <;> rfl
  | integer n =>
    unfold isLeaf at hd
    simp only [Bool.and_eq_true, decide_eq_true_eq] at hd
    exact takeToken?_of_takeNumber? (takeNumber?_append hrest (takeNumber?_integer hd.1 hd.2))
  | real x => exact takeToken?_of_takeNumber? (takeNumber?_append hrest (takeNumber?_real hd))
  | text s => exact takeToken?_quoted s rest
  | list items => cases hd
  | record fields => cases hd

/-! ## Texts and their tokens -/

/-- The tokens of a text, however far the count of them goes. -/
def Lexes (cs : List Char) (ts : List Token) : Prop :=
  ∀ fuel, cs.length ≤ fuel → tokensWithin? fuel cs = some ts

variable {cs rest : List Char} {ts : List Token}

theorem lexes_nil : Lexes [] [] := by
  intro fuel _
  unfold tokensWithin?
  cases fuel <;> rfl

/-- A blank in front changes nothing. -/
theorem Lexes.gap {c : Char} (hc : isGap c = true) (h : Lexes cs ts) : Lexes (c :: cs) ts := by
  intro fuel hfuel
  have hrest := h fuel (by simp at hfuel; omega)
  unfold tokensWithin? at hrest ⊢
  rwa [List.dropWhile_cons_of_pos hc]

theorem Lexes.newLine (level : Nat) (h : Lexes cs ts) : Lexes (newLine level ++ cs) ts := by
  have hblanks : ∀ n, Lexes (List.replicate n ' ' ++ cs) ts := by
    intro n
    induction n with
    | zero => exact h
    | succ n ih => exact ih.gap rfl
  exact (hblanks (2 * level)).gap rfl

/-- No token begins with a blank. -/
theorem not_isGap_of_takeToken? {c : Char} {t : Token} {r : List Char}
    (h : takeToken? (c :: cs) = some (t, r)) : isGap c = false := by
  by_contra hgap
  have hc : c = ' ' ∨ c = '\n' ∨ c = '\t' ∨ c = '\r' := by
    rw [Bool.not_eq_false, isGap] at hgap
    simpa only [Bool.or_eq_true, beq_iff_eq, or_assoc] using hgap
  rcases hc with rfl | rfl | rfl | rfl <;>
    simp [takeToken?, takeNumber?_eq, takeMinus, takeUnsigned?, isWhole] at h

/-- A token in front comes first. -/
theorem Lexes.token {w : List Char} {t : Token} (hw : w ≠ [])
    (ht : takeToken? (w ++ rest) = some (t, rest)) (h : Lexes rest ts) :
    Lexes (w ++ rest) (t :: ts) := by
  intro fuel hfuel
  obtain ⟨c, w, rfl⟩ := List.exists_cons_of_ne_nil hw
  have hc := not_isGap_of_takeToken? ht
  cases fuel with
  | zero => simp at hfuel
  | succ fuel =>
    have hrest := h fuel (by simp at hfuel; omega)
    unfold tokensWithin?
    rw [List.cons_append, List.dropWhile_cons_of_neg (by simp [hc])]
    show (takeToken? (c :: w ++ rest)).bind _ = _
    rw [ht]
    show (tokensWithin? fuel rest).bind _ = _
    rw [hrest]
    rfl

/-- A mark of one character in front comes first. -/
theorem Lexes.mark {c : Char} {t : Token} (ht : takeToken? (c :: rest) = some (t, rest))
    (h : Lexes rest ts) : Lexes (c :: rest) (t :: ts) :=
  Lexes.token (w := [c]) (List.cons_ne_nil c []) ht h

theorem Lexes.quoted (s : String) (h : Lexes rest ts) :
    Lexes (quoted s ++ rest) (.leaf (.text s) :: ts) :=
  Lexes.token (List.cons_ne_nil _ _) (takeToken?_quoted s rest) h

theorem leaf_ne_nil {d : Data} (hd : isLeaf d = true) : leaf d ≠ [] := by
  have hread : takeToken? (leaf d ++ []) = some (.leaf d, []) := takeToken?_leaf hd rfl
  intro hnil
  rw [hnil] at hread
  simp [takeToken?, takeNumber?_eq, takeMinus, takeUnsigned?, isWhole] at hread

theorem Lexes.leaf {d : Data} (hd : isLeaf d = true) (hrest : endsNumber rest = true)
    (h : Lexes rest ts) : Lexes (leaf d ++ rest) (.leaf d :: ts) :=
  Lexes.token (leaf_ne_nil hd) (takeToken?_leaf hd hrest) h

end LoadBench.Json
