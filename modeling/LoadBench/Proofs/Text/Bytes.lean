import Mathlib.Tactic

/-!
# Texts as bytes

A text is kept as the bytes of its characters, and may only be cut where a character ends. A search
that goes by single bytes finds such places if it looks for ASCII characters: these are one byte
each, and no other character begins with a byte of theirs.

Results:
* `bytes_ofList`: the bytes of a text are those of its characters, one after the other.
* `isValid_append`: a text can be cut behind any of its beginnings.
* `FirstBytes.head?_any`, `FirstBytes.takeWhile_bytes`: a test of bytes that stands for one of ASCII
  characters finds the same beginnings.
-/

namespace LoadBench.Text

/-- The bytes of a text. -/
def bytes (s : String) : List UInt8 := s.toByteArray.data.toList

theorem bytes_ofList (cs : List Char) :
    bytes (.ofList cs) = cs.flatMap String.utf8EncodeChar := by
  rw [bytes, String.toByteArray_ofList, List.utf8Encode, List.data_toByteArray,
    List.toList_toArray]

theorem bytes_append (front back : List Char) :
    bytes (.ofList (front ++ back)) = bytes (.ofList front) ++ bytes (.ofList back) := by
  rw [bytes_ofList, bytes_ofList, bytes_ofList, List.flatMap_append]

theorem length_bytes (s : String) : (bytes s).length = s.utf8ByteSize := Array.length_toList

/-- A text can be cut behind any of its beginnings. -/
theorem isValid_append (front back : List Char) :
    (⟨(bytes (.ofList front)).length⟩ : String.Pos.Raw).IsValid (.ofList (front ++ back)) := by
  rw [String.Pos.Raw.isValid_iff_exists_append]
  refine ⟨.ofList front, .ofList back, String.ofList_append, ?_⟩
  rw [String.rawEndPos, length_bytes]

/-! ## Single characters -/

/-- A test of bytes stands for a test of characters, of which only ASCII characters pass. -/
structure FirstBytes (q : UInt8 → Bool) (p : Char → Bool) : Prop where
  ascii : ∀ c, p c = true → c.toNat < 128
  byte : ∀ n < 128, q (UInt8.ofNat n) = p (Char.ofNat n)
  high : ∀ b : UInt8, 128 ≤ b.toNat → q b = false

variable {q : UInt8 → Bool} {p : Char → Bool}

theorem utf8EncodeChar_ascii {c : Char} (h : c.toNat < 128) :
    String.utf8EncodeChar c = [UInt8.ofNat c.toNat] := by
  have hone : c.val.toNat ≤ 127 := Nat.le_of_lt_succ h
  simp only [String.utf8EncodeChar, hone, if_true]
  rfl

theorem bytes_ascii {cs : List Char} (h : ∀ c ∈ cs, c.toNat < 128) :
    bytes (.ofList cs) = cs.map fun c => UInt8.ofNat c.toNat := by
  rw [bytes_ofList, List.flatMap_congr fun c hc => utf8EncodeChar_ascii (h c hc), List.map_eq_flatMap]

/-- A character beyond ASCII begins with a byte beyond ASCII. -/
theorem utf8EncodeChar_high {c : Char} (h : 128 ≤ c.toNat) :
    ∃ b rest, String.utf8EncodeChar c = b :: rest ∧ 128 ≤ b.toNat := by
  have hmore : ¬ c.val.toNat ≤ 127 := by
    show ¬ c.toNat ≤ 127
    omega
  unfold String.utf8EncodeChar
  simp only [hmore, if_false]
  split_ifs
  all_goals
    refine ⟨_, _, rfl, ?_⟩
    rw [UInt8.toNat_ofNat']
    omega

namespace FirstBytes

/-- The first byte of a character passes if the character does. -/
theorem exists_cons (h : FirstBytes q p) (c : Char) :
    ∃ b rest, String.utf8EncodeChar c = b :: rest ∧ q b = p c ∧ (p c = true → rest = []) := by
  by_cases hascii : c.toNat < 128
  · refine ⟨_, _, utf8EncodeChar_ascii hascii, ?_, fun _ => rfl⟩
    rw [h.byte _ hascii, Char.ofNat_toNat]
  · obtain ⟨b, rest, hbytes, hb⟩ := utf8EncodeChar_high (Nat.not_lt.mp hascii)
    have hp : ¬ p c = true := fun hp => hascii (h.ascii c hp)
    exact ⟨b, rest, hbytes, by rw [h.high b hb, Bool.eq_false_iff.mpr hp], fun hp' => absurd hp' hp⟩

theorem head?_any (h : FirstBytes q p) (cs : List Char) :
    (bytes (.ofList cs)).head?.any q = cs.head?.any p := by
  rw [bytes_ofList]
  cases cs with
  | nil => rfl
  | cons c cs =>
    obtain ⟨b, rest, hbytes, hb, -⟩ := h.exists_cons c
    rw [List.flatMap_cons, hbytes]
    exact hb

/-- The longest beginning of bytes that pass is that of characters that pass. -/
theorem takeWhile_bytes (h : FirstBytes q p) (cs : List Char) :
    (bytes (.ofList cs)).takeWhile q = bytes (.ofList (cs.takeWhile p)) := by
  rw [bytes_ofList, bytes_ofList]
  induction cs with
  | nil => rfl
  | cons c cs ih =>
    obtain ⟨b, rest, hbytes, hb, hrest⟩ := h.exists_cons c
    rw [List.flatMap_cons, hbytes, List.takeWhile_cons]
    cases hp : p c with
    | true =>
      rw [List.cons_append, List.takeWhile_cons, hb, hp, hrest hp, if_pos rfl, if_pos rfl,
        List.nil_append, ih, List.flatMap_cons, hbytes, hrest hp]
      rfl
    | false =>
      rw [List.cons_append, List.takeWhile_cons, hb, hp]
      rfl

end FirstBytes

end LoadBench.Text
