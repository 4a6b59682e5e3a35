import Mathlib.Data.List.Basic
import Untangle.Text.Base64

/-!
# Reading base64 back

Text is read leniently: what is outside the alphabet is passed over, padding
among it, and bits that fill no byte are dropped. Reading so undoes encoding,
and agrees with a strict reader of text without padding, once the characters
that such a reader refuses are gone.
-/
namespace Untangle.Text.Base64

/-- The characters, each at the place that is its value. -/
def alphabet : List Char :=
  "ABCDEFGHIJKLMNOPQRSTUVWXYZabcdefghijklmnopqrstuvwxyz0123456789+/".toList

def symbol (value : Nat) : Char := alphabet.getD value '='

/-- Three bytes make four characters. A last group of one or two bytes is filled up with zero bits
to whole characters and with `=` to four of them. -/
def encode : List UInt8 → List Char
  | a :: b :: c :: rest =>
    symbol (a.toNat / 4) :: symbol (a.toNat % 4 * 16 + b.toNat / 16)
      :: symbol (b.toNat % 16 * 4 + c.toNat / 64) :: symbol (c.toNat % 64) :: encode rest
  | [a, b] =>
    [symbol (a.toNat / 4), symbol (a.toNat % 4 * 16 + b.toNat / 16), symbol (b.toNat % 16 * 4), '=']
  | [a] => [symbol (a.toNat / 4), symbol (a.toNat % 4 * 16), '=', '=']
  | [] => []

/-- A text with characters outside the alphabet put in anywhere. -/
inductive Scattered : List Char → List Char → Prop where
  | nil : Scattered [] []
  | keep (c : Char) {s t : List Char} (h : Scattered s t) : Scattered (c :: s) (c :: t)
  | insert {c : Char} (hc : c ∉ alphabet) {s t : List Char} (h : Scattered s t) :
      Scattered s (c :: t)

/-- The text is the encoding of the bytes, less some of the padding at its end, with characters
outside the alphabet put in anywhere. -/
def Spells (bytes : List UInt8) (text : String) : Prop :=
  ∃ kept missing, kept ++ List.replicate missing '=' = encode bytes ∧ Scattered kept text.toList

def sixBits (value : Nat) : List Nat :=
  [value / 32 % 2, value / 16 % 2, value / 8 % 2, value / 4 % 2, value / 2 % 2, value % 2]

/-- Eight bits make a byte; less than eight at the end make none. -/
def octets : List Nat → List UInt8
  | a :: b :: c :: d :: e :: f :: g :: h :: rest =>
    UInt8.ofNat (128 * a + 64 * b + 32 * c + 16 * d + 8 * e + 4 * f + 2 * g + h) :: octets rest
  | _ => []

/-- The strict reader of text without padding. It refuses a character outside the alphabet, and a
single character behind the groups of four. It does not look at the bits that fill no byte. -/
def unpadded? (cs : List Char) : Option (List UInt8) :=
  if cs.length % 4 = 1 then none
  else (cs.mapM (alphabet.idxOf? ·)).map fun values => octets (values.flatMap sixBits)

def symbols (text : String) : List Char := text.toList.filter (alphabet.contains ·)

def wholeSymbols (text : String) : List Char :=
  if (symbols text).length % 4 = 1 then (symbols text).dropLast else symbols text

section Alphabet

theorem sextet?_of_le {c : Char} (hc : 128 ≤ c.toNat) : sextet? c = none := by
  have hbound : ∀ d : Char, d.toNat < 128 → ¬c ≤ d := fun d hd h =>
    absurd (Nat.le_trans hc (UInt32.le_iff_toNat_le.1 h)) (Nat.not_le.2 hd)
  have hdigit : ¬c.isDigit := fun h =>
    absurd (Nat.le_trans hc (Char.isDigit_iff_toNat.1 h).2) (by decide)
  have hplus : c ≠ '+' := by rintro rfl; exact absurd hc (by decide)
  have hslash : c ≠ '/' := by rintro rfl; exact absurd hc (by decide)
  simp only [sextet?, hbound 'Z' (by decide), hbound 'z' (by decide), hdigit, hplus, hslash,
    and_false, if_false, Bool.false_eq_true]

/-- A character stands for its place in the alphabet. -/
theorem sextet?_eq_idxOf? (c : Char) : sextet? c = alphabet.idxOf? c := by
  have hsmall : ∀ n < 128, sextet? (Char.ofNat n) = alphabet.idxOf? (Char.ofNat n) := by
    decide +kernel
  by_cases hc : c.toNat < 128
  · rw [← Char.ofNat_toNat c]
    exact hsmall c.toNat hc
  · have hlow : alphabet.all (·.toNat < 128) := by decide +kernel
    rw [sextet?_of_le (Nat.le_of_not_lt hc)]
    refine (List.idxOf?_eq_none_iff.2 fun hmem => hc ?_).symm
    simpa using List.all_eq_true.1 hlow c hmem

/-- A character is passed over if it is outside of the alphabet. -/
theorem sextet?_eq_none_iff {c : Char} : sextet? c = none ↔ c ∉ alphabet := by
  rw [sextet?_eq_idxOf?, List.idxOf?_eq_none_iff]

/-- Each value of the alphabet is read back from its character. -/
theorem sextet?_symbol {value : Nat} (h : value < 64) : sextet? (symbol value) = some value := by
  have hall : ∀ value < 64, sextet? (symbol value) = some value := by decide +kernel
  exact hall value h

theorem lt_of_sextet? {c : Char} {value : Nat} (h : sextet? c = some value) : value < 64 := by
  rw [sextet?_eq_idxOf?] at h
  exact (List.idxOf?_eq_some_iff.1 h).1

end Alphabet

section Encoding

theorem ofNat_eq {n : Nat} {b : UInt8} (h : n = b.toNat) : UInt8.ofNat n = b := by
  rw [h, UInt8.ofNat_toNat]

/-- The values of an encoding make up the bytes again. -/
theorem bytesOfSextets_encode (bytes : List UInt8) :
    bytesOfSextets ((encode bytes).filterMap sextet?) = bytes := by
  have hpad : sextet? '=' = none := by decide
  fun_induction encode bytes with
  | case1 a b c rest ih =>
    have ha := a.toNat_lt
    have hb := b.toNat_lt
    have hc := c.toNat_lt
    simp (disch := omega) only [List.filterMap_cons, sextet?_symbol, bytesOfSextets, ih]
    rw [ofNat_eq (b := a) (by omega), ofNat_eq (b := b) (by omega), ofNat_eq (b := c) (by omega)]
  | case2 a b =>
    have ha := a.toNat_lt
    have hb := b.toNat_lt
    simp (disch := omega) only [List.filterMap_cons, List.filterMap_nil, sextet?_symbol, hpad,
      bytesOfSextets]
    rw [ofNat_eq (b := a) (by omega), ofNat_eq (b := b) (by omega)]
  | case3 a =>
    have ha := a.toNat_lt
    simp (disch := omega) only [List.filterMap_cons, List.filterMap_nil, sextet?_symbol, hpad,
      bytesOfSextets]
    rw [ofNat_eq (b := a) (by omega)]
  | case4 => rfl

/-- Characters outside of the alphabet make no difference to the values. -/
theorem Scattered.filterMap_eq {s t : List Char} (h : Scattered s t) :
    t.filterMap sextet? = s.filterMap sextet? := by
  induction h with
  | nil => rfl
  | keep c _ ih => rw [List.filterMap_cons, List.filterMap_cons, ih]
  | insert hc _ ih => rw [List.filterMap_cons_none (sextet?_eq_none_iff.2 hc), ih]

/-- Encoded bytes are read back, with any other characters in between. -/
theorem decode_of_spells {bytes : List UInt8} {text : String} (h : Spells bytes text) :
    decode text = bytes := by
  obtain ⟨kept, missing, hencode, hscattered⟩ := h
  have hpad : (List.replicate missing '=').filterMap sextet? = [] :=
    List.filterMap_eq_nil_iff.2 fun c hc => by
      rw [List.eq_of_mem_replicate hc]
      decide
  have hvalues : (encode bytes).filterMap sextet? = kept.filterMap sextet? := by
    rw [← hencode, List.filterMap_append, hpad, List.append_nil]
  rw [decode, hscattered.filterMap_eq, ← hvalues, bytesOfSextets_encode]

end Encoding

section Groups

/-- Six bits a character and eight bits a byte. -/
theorem length_bytesOfSextets : ∀ values : List Nat,
    (bytesOfSextets values).length = 6 * values.length / 8
  | [] | [_] | [_, _] | [_, _, _] => by simp [bytesOfSextets]
  | a :: b :: c :: d :: rest => by
    have ih := length_bytesOfSextets rest
    simp only [bytesOfSextets, List.length_cons, ih]
    omega

/-- A single value behind the groups of four makes no byte. -/
theorem bytesOfSextets_dropLast : ∀ values : List Nat, values.length % 4 = 1 →
    bytesOfSextets values.dropLast = bytesOfSextets values
  | [], h | [_, _], h | [_, _, _], h => absurd h (by simp)
  | [_], _ => rfl
  | a :: b :: c :: d :: rest, h => by
    have hrest : rest.length % 4 = 1 := by
      simp only [List.length_cons] at h
      omega
    have hne : rest ≠ [] := by rintro rfl; cases hrest
    obtain ⟨e, rest, rfl⟩ := List.exists_cons_of_ne_nil hne
    have ih := bytesOfSextets_dropLast (e :: rest) hrest
    simp only [List.dropLast_cons_cons, bytesOfSextets, ih]

theorem firstByte_bits {a b : Nat} (ha : a < 64) (hb : b < 64) :
    128 * (a / 32 % 2) + 64 * (a / 16 % 2) + 32 * (a / 8 % 2) + 16 * (a / 4 % 2) +
      8 * (a / 2 % 2) + 4 * (a % 2) + 2 * (b / 32 % 2) + b / 16 % 2 = a * 4 + b / 16 := by
  omega

theorem secondByte_bits {b c : Nat} (hc : c < 64) :
    128 * (b / 8 % 2) + 64 * (b / 4 % 2) + 32 * (b / 2 % 2) + 16 * (b % 2) +
      8 * (c / 32 % 2) + 4 * (c / 16 % 2) + 2 * (c / 8 % 2) + c / 4 % 2 = b % 16 * 16 + c / 4 := by
  omega

theorem thirdByte_bits {c d : Nat} (hd : d < 64) :
    128 * (c / 2 % 2) + 64 * (c % 2) + 32 * (d / 32 % 2) + 16 * (d / 16 % 2) +
      8 * (d / 8 % 2) + 4 * (d / 4 % 2) + 2 * (d / 2 % 2) + d % 2 = c % 4 * 64 + d := by
  omega

/-- To take the bits of four values eight at a time is to make three bytes of them. -/
theorem octets_flatMap_sixBits : ∀ values : List Nat, (∀ value ∈ values, value < 64) →
    octets (values.flatMap sixBits) = bytesOfSextets values
  | [], _ | [_], _ => rfl
  | [a, b], h => by
    simp only [List.flatMap_cons, List.flatMap_nil, sixBits, List.cons_append, List.nil_append,
      octets, bytesOfSextets, firstByte_bits (h a (by simp)) (h b (by simp))]
  | [a, b, c], h => by
    have hc := h c (by simp)
    simp only [List.flatMap_cons, List.flatMap_nil, sixBits, List.cons_append, List.nil_append,
      octets, bytesOfSextets, firstByte_bits (h a (by simp)) (h b (by simp)), secondByte_bits hc]
  | a :: b :: c :: d :: rest, h => by
    have ih := octets_flatMap_sixBits rest fun value hvalue => h value (by simp [hvalue])
    have hc := h c (by simp)
    have hd := h d (by simp)
    simp only [List.flatMap_cons, sixBits, List.cons_append, List.nil_append, octets,
      bytesOfSextets, ih, firstByte_bits (h a (by simp)) (h b (by simp)), secondByte_bits hc,
      thirdByte_bits hd]

end Groups

section Strict

def value (c : Char) : Nat := (sextet? c).getD 0

theorem sextet?_of_mem {c : Char} (hc : c ∈ alphabet) : sextet? c = some (value c) := by
  cases h : sextet? c with
  | none => exact absurd hc (sextet?_eq_none_iff.1 h)
  | some n => rw [value, h, Option.getD_some]

theorem value_lt {c : Char} (hc : c ∈ alphabet) : value c < 64 :=
  lt_of_sextet? (sextet?_of_mem hc)

/-- The values that are read are those of the characters of the alphabet. -/
theorem filterMap_sextet? (cs : List Char) :
    cs.filterMap sextet? = (cs.filter (alphabet.contains ·)).map value := by
  induction cs with
  | nil => rfl
  | cons c cs ih =>
    by_cases hc : c ∈ alphabet
    · rw [List.filterMap_cons_some (sextet?_of_mem hc), ih,
        List.filter_cons_of_pos (List.contains_iff_mem.2 hc), List.map_cons]
    · rw [List.filterMap_cons_none (sextet?_eq_none_iff.2 hc), ih,
        List.filter_cons_of_neg (by simpa using hc)]

theorem mapM_idxOf? {cs : List Char} (hcs : ∀ c ∈ cs, c ∈ alphabet) :
    cs.mapM (alphabet.idxOf? ·) = some (cs.map value) := by
  induction cs with
  | nil => rfl
  | cons c cs ih =>
    have hc : alphabet.idxOf? c = some (value c) := by
      rw [← sextet?_eq_idxOf?, sextet?_of_mem (hcs c (by simp))]
    rw [List.mapM_cons, hc, ih fun d hd => hcs d (by simp [hd])]
    rfl

/-- Nothing is refused of characters of the alphabet that leave no single one over. -/
theorem unpadded?_of_subset {cs : List Char} (hcs : ∀ c ∈ cs, c ∈ alphabet)
    (hlength : cs.length % 4 ≠ 1) : unpadded? cs = some (bytesOfSextets (cs.map value)) := by
  have hvalues : ∀ n ∈ cs.map value, n < 64 := by
    intro n hn
    obtain ⟨c, hc, rfl⟩ := List.mem_map.1 hn
    exact value_lt (hcs c hc)
  rw [unpadded?, if_neg hlength, mapM_idxOf? hcs, Option.map_some, octets_flatMap_sixBits _ hvalues]

/-- Lenient reading in terms of the characters of the alphabet. -/
theorem decode_eq (text : String) : decode text = bytesOfSextets ((symbols text).map value) := by
  rw [decode, filterMap_sextet?, symbols]

theorem mem_alphabet_of_mem_symbols {text : String} {c : Char} (hc : c ∈ symbols text) :
    c ∈ alphabet :=
  List.contains_iff_mem.1 (List.mem_filter.1 hc).2

/-- The strict reader reads the same of a text without the characters that it refuses. -/
theorem unpadded?_wholeSymbols (text : String) :
    unpadded? (wholeSymbols text) = some (decode text) := by
  rw [decode_eq, wholeSymbols]
  split
  · next h =>
    have hlength : (symbols text).dropLast.length % 4 ≠ 1 := by
      rw [List.length_dropLast]
      omega
    rw [unpadded?_of_subset (fun c hc => mem_alphabet_of_mem_symbols (List.dropLast_subset _ hc))
      hlength, List.map_dropLast, bytesOfSextets_dropLast _ (by rwa [List.length_map])]
  · next h => exact unpadded?_of_subset (fun _ => mem_alphabet_of_mem_symbols) h

end Strict

/-- Whatever spells the encoding of some bytes is read as these bytes. Of every text as many bytes
are read as its characters of the alphabet can fill, and they are those of the strict reader, which
refuses nothing of what is left for it. -/
theorem decode_lenient :
    (∀ (bytes : List UInt8) (text : String), Spells bytes text → decode text = bytes) ∧
      ∀ text : String, (decode text).length = 6 * (symbols text).length / 8 ∧
        unpadded? (wholeSymbols text) = some (decode text) := by
  refine ⟨fun bytes text h => decode_of_spells h, fun text => ⟨?_, unpadded?_wholeSymbols text⟩⟩
  rw [decode_eq, length_bytesOfSextets, List.length_map]

/-- The encoding of `hello` with a blank and a dash put in and its padding left off. -/
theorem decode_dashed :
    Spells [104, 101, 108, 108, 111] "aG Vs-bG8" ∧
      decode "aG Vs-bG8" = [104, 101, 108, 108, 111] := by
  have hspells : Spells [104, 101, 108, 108, 111] "aG Vs-bG8" := by
    refine ⟨"aGVsbG8".toList, 1, by decide +kernel, ?_⟩
    exact .keep 'a' <| .keep 'G' <| .insert (by decide) <| .keep 'V' <| .keep 's' <|
      .insert (by decide) <| .keep 'b' <| .keep 'G' <| .keep '8' .nil
  exact ⟨hspells, decode_lenient.1 _ _ hspells⟩

end Untangle.Text.Base64
