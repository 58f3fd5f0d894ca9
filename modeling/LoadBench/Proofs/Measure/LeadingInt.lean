import Mathlib.Tactic
import LoadBench.Measure.Telemetry
import LoadBench.Proofs.Json.Tokens
import LoadBench.Proofs.Text.Bytes

/-!
# Numbers in front of a text

A telemetry counter that arrives as a text is read from its front: blanks are skipped, a sign may
come, and then as many digits as there are. What stands behind the digits does not matter. Every
text can be taken apart like that in one way, and the cuts never go through a character.

Results:
* `natOfDigits_eq_decimal`: every digit is worth what its position says.
* `exists_leadingParts`, `LeadingParts.unique`: there is one way to take a text apart.
* `LeadingParts.leadingIntOfText_eq`: the reading is the number that sign and digits spell, and zero
  where there is none, or none that a signed word can hold.
* `LeadingParts.cutsAt`: the cuts, found by single bytes, are between characters.
* `leadingInt_ofText`: all of this of any text.
-/

namespace LoadBench

open Text (isBlank bytes)

/-! ## Decimal numbers -/

/-- The number that decimal digits stand for by their positions, the last one being the units. -/
def decimal (digits : List Char) : Nat :=
  Nat.ofDigits 10 (digits.reverse.map fun c => c.toNat - '0'.toNat)

theorem natOfDigits_concat (digits : List Char) (c : Char) :
    natOfDigits (digits ++ [c]) = 10 * natOfDigits digits + (c.toNat - '0'.toNat) := by
  rw [natOfDigits, List.foldl_append]
  rfl

/-- Reading digit by digit gives every digit the worth of its position. -/
theorem natOfDigits_eq_decimal (digits : List Char) : natOfDigits digits = decimal digits := by
  induction digits using List.reverseRecOn with
  | nil => rfl
  | append_singleton digits c ih =>
    rw [natOfDigits_concat, ih, decimal, decimal, List.reverse_append, List.reverse_singleton,
      List.singleton_append, List.map_cons, Nat.ofDigits_cons]
    omega

/-! ## The parts of a text -/

/-- A text taken apart from its front: blanks, a sign, digits, and what is left. The blanks and the
    digits are as many as there are, and a sign that comes next is taken. -/
structure LeadingParts (s : String) (blanks sign digits rest : List Char) : Prop where
  text : s.toList = blanks ++ (sign ++ (digits ++ rest))
  areBlank : ∀ c ∈ blanks, isBlank c = true
  behindBlanks : (sign ++ (digits ++ rest)).head?.all (!isBlank ·) = true
  isSign : sign = [] ∨ sign = ['+'] ∨ sign = ['-']
  behindSign : sign = [] → (digits ++ rest).head?.all (fun c => c != '+' && c != '-') = true
  areDigits : ∀ c ∈ digits, c.isDigit = true
  behindDigits : rest.head?.all (!Char.isDigit ·) = true

/-- The number that a sign and digits spell; zero without digits, and if there is no room for the
    digits in a signed word. -/
def spelled (sign digits : List Char) : Int :=
  if digits ≠ [] ∧ decimal digits ≤ 2 ^ 63 - 1 then
    (if sign = ['-'] then -1 else 1) * (decimal digits : Int)
  else 0

/-! ## One way to take a text apart -/

theorem takeWhile_dropWhile_append {p : Char → Bool} {front back : List Char}
    (hfront : ∀ c ∈ front, p c = true) (hback : back.head?.all (!p ·) = true) :
    (front ++ back).takeWhile p = front ∧ (front ++ back).dropWhile p = back := by
  constructor
  · rw [Json.takeWhile_append_of_head hback, List.takeWhile_eq_self_iff]
    exact hfront
  · rw [Json.dropWhile_append_of_head hback, List.dropWhile_eq_nil_iff.mpr hfront, List.nil_append]

theorem head?_all_dropWhile (p : Char → Bool) (cs : List Char) :
    (cs.dropWhile p).head?.all (!p ·) = true := by
  cases h : cs.dropWhile p with
  | nil => rfl
  | cons c rest =>
    have hne : cs.dropWhile p ≠ [] := by simp [h]
    have hhead := List.head_dropWhile_not p hne
    simpa [h] using hhead

namespace LeadingParts

variable {s : String} {blanks blanks' sign sign' digits digits' rest rest' : List Char}

theorem dropWhile_eq (h : LeadingParts s blanks sign digits rest) :
    s.toList.dropWhile isBlank = sign ++ (digits ++ rest) := by
  rw [h.text]
  exact (takeWhile_dropWhile_append h.areBlank h.behindBlanks).2

theorem takeSign_eq (h : LeadingParts s blanks sign digits rest) :
    Numeral.takeSign (sign ++ (digits ++ rest)) = (decide (sign = ['-']), digits ++ rest) := by
  rcases h.isSign with rfl | rfl | rfl
  · have hnext := h.behindSign rfl
    rw [List.nil_append]
    generalize digits ++ rest = cs at hnext
    unfold Numeral.takeSign
    split <;> simp_all
  · rfl
  · rfl

/-- There is one way to take a text apart. -/
theorem unique (h : LeadingParts s blanks sign digits rest)
    (h' : LeadingParts s blanks' sign' digits' rest') :
    blanks = blanks' ∧ sign = sign' ∧ digits = digits' ∧ rest = rest' := by
  have hbehind : sign ++ (digits ++ rest) = sign' ++ (digits' ++ rest') :=
    h.dropWhile_eq.symm.trans h'.dropWhile_eq
  have hcs : digits ++ rest = digits' ++ rest' := by
    have htake := h.takeSign_eq
    rw [hbehind, h'.takeSign_eq] at htake
    exact (congrArg Prod.snd htake).symm
  obtain ⟨htake, hdrop⟩ := takeWhile_dropWhile_append h.areDigits h.behindDigits
  obtain ⟨htake', hdrop'⟩ := takeWhile_dropWhile_append h'.areDigits h'.behindDigits
  rw [hcs] at htake hdrop hbehind
  have htext := h.text.symm.trans h'.text
  rw [hcs, List.append_cancel_right hbehind] at htext
  exact ⟨List.append_cancel_right htext, List.append_cancel_right hbehind,
    htake.symm.trans htake', hdrop.symm.trans hdrop'⟩

end LeadingParts

theorem exists_leadingParts (s : String) :
    ∃ blanks sign digits rest, LeadingParts s blanks sign digits rest := by
  have hparts (sign cs : List Char) (hcs : s.toList.dropWhile isBlank = sign ++ cs)
      (hsign : sign = [] ∨ sign = ['+'] ∨ sign = ['-'])
      (hnext : sign = [] → cs.head?.all (fun c => c != '+' && c != '-') = true) :
      LeadingParts s (s.toList.takeWhile isBlank) sign (cs.takeWhile Char.isDigit)
        (cs.dropWhile Char.isDigit) := by
    refine ⟨?_, fun c hc => List.mem_takeWhile_imp hc, ?_, hsign, ?_,
      fun c hc => List.mem_takeWhile_imp hc, head?_all_dropWhile _ _⟩
    · rw [List.takeWhile_append_dropWhile, ← hcs, List.takeWhile_append_dropWhile]
    · rw [List.takeWhile_append_dropWhile, ← hcs]
      exact head?_all_dropWhile _ _
    · rw [List.takeWhile_append_dropWhile]
      exact hnext
  rcases hcs : s.toList.dropWhile isBlank with _ | ⟨c, cs⟩
  · exact ⟨_, [], _, _, hparts [] [] hcs (.inl rfl) fun _ => rfl⟩
  · by_cases hplus : c = '+'
    · subst hplus
      exact ⟨_, ['+'], _, _, hparts ['+'] cs hcs (.inr (.inl rfl)) (by simp)⟩
    · by_cases hminus : c = '-'
      · subst hminus
        exact ⟨_, ['-'], _, _, hparts ['-'] cs hcs (.inr (.inr rfl)) (by simp)⟩
      · exact ⟨_, [], _, _, hparts [] (c :: cs) hcs (.inl rfl) (by simp [hplus, hminus])⟩

/-! ## What is read -/

theorem spelled_le (sign digits : List Char) :
    -signedMax ≤ spelled sign digits ∧ spelled sign digits ≤ signedMax := by
  have hmax : signedMax = 2 ^ 63 - 1 := rfl
  unfold spelled
  split_ifs with hroom hminus <;> omega

namespace LeadingParts

variable {s : String} {blanks sign digits rest : List Char}

theorem leadingIntOfText_eq (h : LeadingParts s blanks sign digits rest) :
    leadingIntOfText s = spelled sign digits := by
  have hdigits := (takeWhile_dropWhile_append h.areDigits h.behindDigits).1
  have hmax : signedMax = 2 ^ 63 - 1 := rfl
  have hnone : digits = [] → decimal digits = 0 := by
    rintro rfl
    rfl
  unfold leadingIntOfText spelled
  simp only [h.dropWhile_eq, h.takeSign_eq, hdigits, natOfDigits_eq_decimal, decide_eq_true_eq]
  by_cases hempty : digits = []
  · simp [hnone hempty, hmax]
  · simp only [ne_eq, hempty, not_false_eq_true, true_and]
    split_ifs <;> omega

/-- Text behind the digits that does not go on with them belongs to what is left. -/
theorem append (h : LeadingParts s blanks sign digits rest) (hdigits : digits ≠ []) {more : String}
    (hmore : more.toList.head?.all (!Char.isDigit ·) = true) :
    LeadingParts (s ++ more) blanks sign digits (rest ++ more.toList) where
  text := by
    rw [String.toList_append, h.text]
    simp only [List.append_assoc]
  areBlank := h.areBlank
  behindBlanks := by
    have hhead := h.behindBlanks
    rw [← List.append_assoc, List.head?_append_of_ne_nil _ (by simp [hdigits])] at hhead ⊢
    exact hhead
  isSign := h.isSign
  behindSign hsign := by
    have hhead := h.behindSign hsign
    rw [List.head?_append_of_ne_nil _ hdigits] at hhead ⊢
    exact hhead
  areDigits := h.areDigits
  behindDigits := by
    rcases rest with _ | ⟨c, rest⟩
    · exact hmore
    · exact h.behindDigits

/-- Blanks in front belong to the blanks. -/
theorem prepend (h : LeadingParts s blanks sign digits rest) {more : String}
    (hmore : ∀ c ∈ more.toList, isBlank c = true) :
    LeadingParts (more ++ s) (more.toList ++ blanks) sign digits rest where
  text := by rw [String.toList_append, h.text, List.append_assoc]
  areBlank c hc := (List.mem_append.mp hc).elim (hmore c) (h.areBlank c)
  behindBlanks := h.behindBlanks
  isSign := h.isSign
  behindSign := h.behindSign
  areDigits := h.areDigits
  behindDigits := h.behindDigits

end LeadingParts

/-! ## Cuts between characters -/

/-- The byte is a plus or a minus. -/
def isSignByte (b : UInt8) : Bool := b == 0x2B || b == 0x2D

/-- The byte is a decimal digit. -/
def isDigitByte (b : UInt8) : Bool := 0x30 ≤ b && b ≤ 0x39

/-- Where a text is cut behind a sign in front of it, which is found by the first byte. -/
def signEnd (t : String) : Nat := if (bytes t).head?.any isSignByte then 1 else 0

/-- Where it is cut behind the digits there, which are found byte by byte. -/
def digitsEnd (t : String) : Nat :=
  signEnd t + (((bytes t).drop (signEnd t)).takeWhile isDigitByte).length

/-- Both cuts are between characters, and the digits are between them. -/
structure CutsAt (t : String) (digits : List Char) : Prop where
  behindSign : (⟨signEnd t⟩ : String.Pos.Raw).IsValid t
  behindDigits : (⟨digitsEnd t⟩ : String.Pos.Raw).IsValid t
  between : ((bytes t).take (digitsEnd t)).drop (signEnd t) = bytes (.ofList digits)

theorem firstBytes_sign : Text.FirstBytes isSignByte (fun c => c == '+' || c == '-') where
  ascii c h := by
    simp only [Bool.or_eq_true, beq_iff_eq] at h
    rcases h with rfl | rfl <;> decide
  byte := by decide
  high b hb := by
    unfold isSignByte
    simp only [Bool.or_eq_false_iff, beq_eq_false_iff_ne]
    constructor <;> rintro rfl <;> exact absurd hb (by decide)

theorem toNat_lt_of_isDigit {c : Char} (h : c.isDigit = true) : c.toNat < 128 := by
  simp only [Char.isDigit, Bool.and_eq_true, decide_eq_true_eq] at h
  have hle := UInt32.le_iff_toNat_le.mp h.2
  exact hle.trans_lt (by decide)

theorem firstBytes_digit : Text.FirstBytes isDigitByte Char.isDigit where
  ascii c h := toNat_lt_of_isDigit h
  byte := by decide
  high b hb := by
    unfold isDigitByte
    simp only [Bool.and_eq_false_iff, decide_eq_false_iff_not, UInt8.not_le]
    exact .inr (UInt8.lt_iff_toNat_lt.mpr ((by decide : 57 < 128).trans_le hb))

/-- A text that begins with a sign and digits is cut behind each of them. -/
theorem cutsAt_ofList {sign digits rest : List Char}
    (hsign : sign = [] ∨ sign = ['+'] ∨ sign = ['-'])
    (hnext : sign = [] → (digits ++ rest).head?.all (fun c => c != '+' && c != '-') = true)
    (hdigits : ∀ c ∈ digits, c.isDigit = true) (hrest : rest.head?.all (!Char.isDigit ·) = true) :
    CutsAt (.ofList (sign ++ (digits ++ rest))) digits := by
  have hascii : ∀ c ∈ sign, c.toNat < 128 := by
    rcases hsign with rfl | rfl | rfl <;> simp
  have hlength : (bytes (.ofList sign)).length = sign.length := by
    rw [Text.bytes_ascii hascii, List.length_map]
  have hsignEnd : signEnd (.ofList (sign ++ (digits ++ rest))) = (bytes (.ofList sign)).length := by
    unfold signEnd
    rw [firstBytes_sign.head?_any, hlength]
    rcases hsign with rfl | rfl | rfl
    · have hnone := hnext rfl
      rw [List.nil_append]
      cases hcs : digits ++ rest with
      | nil => rfl
      | cons c cs =>
        rw [hcs] at hnone
        simp_all
    · rfl
    · rfl
  have hbehind : (bytes (.ofList (sign ++ (digits ++ rest)))).drop (bytes (.ofList sign)).length =
      bytes (.ofList (digits ++ rest)) := by
    rw [Text.bytes_append, List.drop_left]
  have hdigitsEnd : digitsEnd (.ofList (sign ++ (digits ++ rest))) =
      (bytes (.ofList (sign ++ digits))).length := by
    unfold digitsEnd
    rw [hsignEnd, hbehind, firstBytes_digit.takeWhile_bytes,
      (takeWhile_dropWhile_append hdigits hrest).1, Text.bytes_append, List.length_append]
  refine ⟨?_, ?_, ?_⟩
  · rw [hsignEnd]
    exact Text.isValid_append sign (digits ++ rest)
  · rw [hdigitsEnd, ← List.append_assoc]
    exact Text.isValid_append (sign ++ digits) rest
  · rw [hdigitsEnd, hsignEnd, ← List.append_assoc, Text.bytes_append (sign ++ digits) rest,
      List.take_left, Text.bytes_append, List.drop_left]

namespace LeadingParts

variable {s : String} {blanks sign digits rest : List Char}

theorem trimStart_eq (h : LeadingParts s blanks sign digits rest) :
    Text.trimStart s = .ofList (sign ++ (digits ++ rest)) :=
  congrArg String.ofList h.dropWhile_eq

/-- Behind the blanks, a text is cut between characters. -/
theorem cutsAt (h : LeadingParts s blanks sign digits rest) :
    CutsAt (Text.trimStart s) digits := by
  rw [h.trimStart_eq]
  exact cutsAt_ofList h.isSign h.behindSign h.areDigits h.behindDigits

end LeadingParts

/-! ## Any text -/

/-- Every text has one beginning of blanks, a sign and digits; it is read as the number that these
    spell, which a signed word holds. Neither what comes behind the digits nor blanks in front
    change the reading, and the text is cut between characters only. -/
theorem leadingInt_ofText (s : String) :
    ∃ blanks sign digits rest, LeadingParts s blanks sign digits rest ∧
      (∀ blanks' sign' digits' rest', LeadingParts s blanks' sign' digits' rest' →
        blanks = blanks' ∧ sign = sign' ∧ digits = digits' ∧ rest = rest') ∧
      leadingInt (some (.text s)) = spelled sign digits ∧
      -signedMax ≤ leadingInt (some (.text s)) ∧ leadingInt (some (.text s)) ≤ signedMax ∧
      (digits ≠ [] → ∀ more : String, more.toList.head?.all (!Char.isDigit ·) = true →
        leadingInt (some (.text (s ++ more))) = leadingInt (some (.text s))) ∧
      (∀ more : String, (∀ c ∈ more.toList, isBlank c = true) →
        leadingInt (some (.text (more ++ s))) = leadingInt (some (.text s))) ∧
      CutsAt (Text.trimStart s) digits := by
  obtain ⟨blanks, sign, digits, rest, h⟩ := exists_leadingParts s
  have hread : leadingInt (some (.text s)) = spelled sign digits := h.leadingIntOfText_eq
  obtain ⟨hleast, hmost⟩ := spelled_le sign digits
  refine ⟨blanks, sign, digits, rest, h, fun _ _ _ _ h' => h.unique h', hread, ?_, ?_, ?_, ?_,
    h.cutsAt⟩
  · rw [hread]
    exact hleast
  · rw [hread]
    exact hmost
  · intro hdigits more hmore
    rw [hread]
    exact (h.append hdigits hmore).leadingIntOfText_eq
  · intro more hmore
    rw [hread]
    exact (h.prepend hmore).leadingIntOfText_eq

/-- The reading of a text with a no-break space in front, whose digits a character of several bytes
    follows. -/
example : leadingInt (some (.text "\u00a0-007é5")) = -7 := by decide +kernel

end LoadBench
