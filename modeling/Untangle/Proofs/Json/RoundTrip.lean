import Untangle.Json.Reader
import Untangle.Json.Writer

/-!
# JSON text reads back

The text written for an object or an array reads as the same value with the
members of each object put in order, one after the other, as the reader does.
What is needed of the numbers is that each reads back from its own text.

The reader is a fold, so reading a value is stated for any containers around
it and for any text behind it.
-/
namespace Untangle.Json

mutual
/-- The value with the members of its objects in order; of two members of one name the later one
stays. -/
def normal : Json → Json
  | .array items => .array (normalItems items)
  | .object members => .object (normalMembers [] members)
  | v => v
termination_by structural v => v
def normalItems : List Json → List Json
  | [] => []
  | v :: rest => normal v :: normalItems rest
termination_by structural l => l
def normalMembers (placed : List (String × Json)) : List (String × Json) → List (String × Json)
  | [] => placed
  | (name, v) :: rest => normalMembers (insertMember name (normal v) placed) rest
termination_by structural l => l
end

mutual
/-- Each number in the value reads back from its text. -/
def Legible : Json → Prop
  | .integer n => read (toString n) = .ok (.integer n)
  | .double x => read (doubleText x) = .ok (.double x)
  | .array items => LegibleItems items
  | .object members => LegibleMembers members
  | _ => True
termination_by structural v => v
def LegibleItems : List Json → Prop
  | [] => True
  | v :: rest => Legible v ∧ LegibleItems rest
termination_by structural l => l
def LegibleMembers : List (String × Json) → Prop
  | [] => True
  | (_, v) :: rest => Legible v ∧ LegibleMembers rest
termination_by structural l => l
end

def run (s : State) (cs : List Char) : Result State := cs.foldlM step s

@[simp] theorem run_nil (s : State) : run s [] = .ok s := rfl

@[simp] theorem run_cons (s : State) (c : Char) (cs : List Char) :
    run s (c :: cs) = (step s c).bind fun s => run s cs := rfl

theorem run_append (s : State) (cs ds : List Char) :
    run s (cs ++ ds) = (run s cs).bind fun s => run s ds :=
  List.foldlM_append

theorem read_eq (text : String) : read text = (run ⟨.value, []⟩ text.toList).bind finish := rfl

structure Scanning (inside : StringScan → State) (closed : String → State) : Prop where
  step_eq : ∀ s c, step (inside s) c =
    if c = '"' ∧ s.closable then .ok (closed s.text) else (s.step c).map inside

theorem scanning_string (frames : List Frame) :
    Scanning (fun s => ⟨.string s, frames⟩) fun t => deliver (.string t) frames :=
  ⟨fun _ _ => rfl⟩

theorem scanning_name (members : List (String × Json)) (frames : List Frame) :
    Scanning (fun s => ⟨.name members s, frames⟩) fun t => ⟨.objectColon members t, frames⟩ :=
  ⟨fun _ _ => rfl⟩

theorem hexDigit?_hexDigit : ∀ d < 16, hexDigit? (hexDigit d) = some d := by decide

theorem utf8Size_hexDigit : ∀ d < 16, (hexDigit d).utf8Size = 1 := by decide

theorem unit_of_lt (s : StringScan) {n : Nat} (h : n < 0xD800) :
    s.unit none n = .ok (s.push (Char.ofNat n)) := by
  simp only [StringScan.unit]
  rw [if_neg (by omega), if_neg (by omega)]

section Strings
variable {inside : StringScan → State} {closed : String → State}

/-- A two-character escape. -/
theorem run_simpleEscape (h : Scanning inside closed) (chars : List Char) {c d : Char}
    (hc : c ≠ 'u') (hd : StringScan.simpleEscape? c = some d) (rest : List Char) :
    run (inside ⟨chars, .outside⟩) ('\\' :: c :: rest) =
      run (inside ⟨d :: chars, .outside⟩) rest := by
  simp [h.step_eq, StringScan.step, StringScan.closable, StringScan.push, hc, hd, Except.map,
    Except.bind]

/-- A control character that is written by its number. -/
theorem run_hexEscape (h : Scanning inside closed) (chars : List Char) {n : Nat} (hn : n < 32)
    (rest : List Char) :
    run (inside ⟨chars, .outside⟩)
        ('\\' :: 'u' :: '0' :: '0' :: hexDigit (n / 16) :: hexDigit (n % 16) :: rest)
      = run (inside ⟨Char.ofNat n :: chars, .outside⟩) rest := by
  have h1 := hexDigit?_hexDigit (n / 16) (by omega)
  have h2 := hexDigit?_hexDigit (n % 16) (by omega)
  have s1 := utf8Size_hexDigit (n / 16) (by omega)
  have s2 := utf8Size_hexDigit (n % 16) (by omega)
  have h0 : hexDigit? '0' = some 0 := rfl
  have s0 : '0'.utf8Size = 1 := rfl
  have hv : n / 16 * 16 + n % 16 = n := by omega
  simp [h.step_eq, StringScan.step, StringScan.closable, StringScan.push, StringScan.hex,
    unit_of_lt _ (Nat.lt_trans hn (by decide)), codeUnit?, Except.map, Except.bind, h1, h2, h0, s1,
    s2, s0, hv]

theorem run_plain (h : Scanning inside closed) (chars : List Char) {c : Char} (hq : c ≠ '"')
    (hb : c ≠ '\\') (hc : 32 ≤ c.toNat) (rest : List Char) :
    run (inside ⟨chars, .outside⟩) (c :: rest) = run (inside ⟨c :: chars, .outside⟩) rest := by
  simp [h.step_eq, StringScan.step, StringScan.push, hq, hb, Nat.not_lt.2 hc, Except.map,
    Except.bind]

/-- Each character is read back from the way it is written. -/
theorem run_escaped (h : Scanning inside closed) (chars : List Char) (c : Char)
    (rest : List Char) :
    run (inside ⟨chars, .outside⟩) (escaped c ++ rest) =
      run (inside ⟨c :: chars, .outside⟩) rest := by
  unfold escaped
  by_cases hq : c = '"'
  · rw [if_pos hq, hq]
    exact run_simpleEscape h chars (by decide) rfl rest
  by_cases hb : c = '\\'
  · rw [if_neg hq, if_pos hb, hb]
    exact run_simpleEscape h chars (by decide) rfl rest
  rw [if_neg hq, if_neg hb]
  split
  · next hc =>
    rw [hc]
    exact run_simpleEscape h chars (by decide) rfl rest
  split
  · next hc =>
    rw [hc]
    exact run_simpleEscape h chars (by decide) rfl rest
  split
  · next hc =>
    rw [hc]
    exact run_simpleEscape h chars (by decide) rfl rest
  split
  · next hc =>
    rw [hc]
    exact run_simpleEscape h chars (by decide) rfl rest
  split
  · next hc =>
    rw [hc]
    exact run_simpleEscape h chars (by decide) rfl rest
  split
  · next hc =>
    have hr := run_hexEscape h chars hc rest
    rwa [Char.ofNat_toNat] at hr
  · next hc => exact run_plain h chars hq hb (by omega) rest

/-- The characters of a quoted string and the closing quote. -/
theorem run_escapedList (h : Scanning inside closed) (chars cs rest : List Char) :
    run (inside ⟨chars, .outside⟩) (cs.flatMap escaped ++ '"' :: rest)
      = run (closed (String.ofList (chars.reverse ++ cs))) rest := by
  induction cs generalizing chars with
  | nil => simp [h.step_eq, StringScan.closable, StringScan.text, Except.bind]
  | cons c cs ih =>
    rw [List.flatMap_cons, List.append_assoc, run_escaped h, ih]
    simp

/-- The characters of a string and the quote behind them. -/
theorem run_quoted (h : Scanning inside closed) (s : String) (rest : List Char) :
    run (inside ⟨[], .outside⟩) (s.toList.flatMap escaped ++ '"' :: rest) =
      run (closed s) rest := by
  have hr := run_escapedList h [] s.toList rest
  simpa using hr

end Strings

/-- Reading the text hands the value to the container, whatever is behind the text. -/
def Closed (cs : List Char) (v : Json) : Prop :=
  ∀ frames rest, run ⟨.value, frames⟩ (cs ++ rest) = run (deliver v frames) rest

/-- The characters that may stand behind a value inside a container. -/
def isCloser (c : Char) : Bool := c == ',' || c == ']' || c == '\x7d'

/-- Reading the text hands the value to the container as soon as the next character shows that
the value is complete. -/
def Spells (cs : List Char) (v : Json) : Prop :=
  ∀ frames c rest, isCloser c →
    run ⟨.value, frames⟩ (cs ++ c :: rest) = run (deliver v frames) (c :: rest)

theorem Closed.spells {cs : List Char} {v : Json} (h : Closed cs v) : Spells cs v :=
  fun frames c rest _ => h frames (c :: rest)

theorem closed_null : Closed "null".toList .null := fun _ _ => rfl

theorem closed_boolean (b : Bool) :
    Closed (if b then "true" else "false").toList (.boolean b) := by
  cases b <;> exact fun _ _ => rfl

theorem quote_toList (s : String) :
    (quote s).toList = '"' :: (s.toList.flatMap escaped ++ ['"']) := by
  simp [quote]

/-- A quoted string reads back whatever is behind it. -/
theorem closed_quote (s : String) : Closed (quote s).toList (.string s) := by
  intro frames rest
  rw [quote_toList, List.cons_append, List.append_assoc]
  exact run_quoted (scanning_string frames) s rest

theorem digit_ne {c : Char} (h : c.isDigit) {d : Char} (hd : d.isDigit = false) : c ≠ d := by
  rintro rfl
  rw [h] at hd
  cases hd

theorem unblank_of_all {cs : List Char} (h : cs.all (fun c => !isBlank c) = true) :
    ∀ c ∈ cs, isBlank c = false := by
  simpa using h

theorem isBlank_digit {c : Char} (h : c.isDigit) : isBlank c = false := by
  simp [isBlank, digit_ne h (d := ' ') rfl, digit_ne h (d := '\n') rfl,
    digit_ne h (d := '\t') rfl, digit_ne h (d := '\r') rfl]

/-- A number begins with a digit or a minus sign. -/
theorem step_numeral {c : Char} (h : c = '-' ∨ c.isDigit) :
    ∃ scan, ∀ frames, step ⟨.value, frames⟩ c = .ok ⟨.number scan, frames⟩ := by
  rcases h with rfl | h
  · exact ⟨_, fun _ => rfl⟩
  · have hstep : ∀ frames, step ⟨.value, frames⟩ c = beginValue c frames := by
      intro frames
      simp [step, between, isBlank_digit h]
    have hd : digit? c = some (c.toNat - '0'.toNat) := if_pos h
    simp only [hstep, beginValue, hd, digit_ne h (d := '"') rfl, digit_ne h (d := '[') rfl,
      digit_ne h (d := '\x7b') rfl, digit_ne h (d := '-') rfl, digit_ne h (d := 't') rfl,
      digit_ne h (d := 'f') rfl, digit_ne h (d := 'n') rfl, if_false]
    split
    · exact ⟨_, fun _ => rfl⟩
    · exact ⟨_, fun _ => rfl⟩
    · next hn => cases hn

/-- A text that reads as a number at the top reads as one anywhere. The text goes on with the
number at each character, since behind a complete value only blanks may stand. -/
theorem run_number {cs : List Char} (hb : ∀ c ∈ cs, isBlank c = false) {scan : NumberScan}
    {v : Json} (h : (run ⟨.number scan, []⟩ cs).bind finish = .ok v) :
    ∃ last : NumberScan, last.value = .ok v ∧
      ∀ frames, run ⟨.number scan, frames⟩ cs = .ok ⟨.number last, frames⟩ := by
  induction cs generalizing scan with
  | nil => exact ⟨scan, h, fun _ => rfl⟩
  | cons c cs ih =>
    have hc := hb c List.mem_cons_self
    simp only [run_cons, step] at h ⊢
    cases hs : scan.step c with
    | extended scan' =>
      rw [hs] at h
      exact ih (fun c hc => hb c (List.mem_cons_of_mem _ hc)) h
    | ended =>
      rw [hs] at h
      cases hv : scan.value with
      | ok w => simp [hv, bind, Except.bind, deliver, between, hc] at h
      | error f => simp [hv, bind, Except.bind] at h
    | spoiled =>
      rw [hs] at h
      cases h

theorem isCloser_iff {c : Char} : isCloser c ↔ c = ',' ∨ c = ']' ∨ c = '\x7d' := by
  simp [isCloser, or_assoc]

/-- The character behind a complete number ends it. -/
theorem step_closer {scan : NumberScan} {v : Json} {c : Char} (hv : scan.value = .ok v)
    (hc : isCloser c) (frames : List Frame) :
    step ⟨.number scan, frames⟩ c = step (deliver v frames) c := by
  have hend : scan.step c = .ended := by
    have hd : digit? c = none := by
      rcases isCloser_iff.1 hc with rfl | rfl | rfl <;> rfl
    have hm : c ≠ '.' ∧ c ≠ 'e' ∧ c ≠ 'E' := by
      rcases isCloser_iff.1 hc with rfl | rfl | rfl <;> decide
    obtain ⟨phase, negative, significand, scale, full, exponentNegative, exponent⟩ := scan
    cases phase <;>
      simp_all [NumberScan.step, NumberScan.step.mark, NumberScan.step.exponentMark,
        NumberScan.value]
  have hbetween : step (deliver v frames) c = between (deliver v frames) c := by
    cases frames with
    | nil => rfl
    | cons f frames => cases f <;> rfl
  rw [hbetween]
  simp [step, hend, hv, bind, Except.bind]

/-- A text with the characters of a number that reads as a value. -/
structure Numeral (cs : List Char) : Prop where
  head : ∃ c ds, cs = c :: ds ∧ (c = '-' ∨ c.isDigit)
  unblank : ∀ c ∈ cs, isBlank c = false

/-- A text of a number that reads as a value by itself reads as it inside of any containers. -/
theorem Numeral.spells {text : String} {v : Json} (hn : Numeral text.toList)
    (h : read text = .ok v) : Spells text.toList v := by
  intro frames c rest hc
  obtain ⟨d, ds, hds, hd⟩ := hn.head
  obtain ⟨scan, hscan⟩ := step_numeral hd
  have hrun : (run ⟨.number scan, []⟩ ds).bind finish = .ok v := by
    rw [read_eq, hds, run_cons, hscan] at h
    exact h
  have hb : ∀ c ∈ ds, isBlank c = false := fun c hc =>
    hn.unblank c (hds ▸ List.mem_cons_of_mem d hc)
  obtain ⟨last, hv, hlast⟩ := run_number hb hrun
  rw [hds, List.cons_append, run_cons, hscan]
  simp only [Except.bind, run_append, hlast, run_cons, step_closer hv hc]

/-- A digit and then no blank. -/
structure Digital (cs : List Char) : Prop where
  head : ∃ c ds, cs = c :: ds ∧ c.isDigit
  unblank : ∀ c ∈ cs, isBlank c = false

theorem Digital.append {cs ds : List Char} (h : Digital cs) (hd : ∀ c ∈ ds, isBlank c = false) :
    Digital (cs ++ ds) where
  head := by
    obtain ⟨c, rest, hcs, hc⟩ := h.head
    exact ⟨c, rest ++ ds, by rw [hcs, List.cons_append], hc⟩
  unblank := List.forall_mem_append.2 ⟨h.unblank, hd⟩

theorem digital_of_digits {cs : List Char} (hne : cs ≠ []) (h : ∀ c ∈ cs, c.isDigit) :
    Digital cs where
  head := by
    cases cs with
    | nil => exact absurd rfl hne
    | cons c cs => exact ⟨c, cs, rfl, h c List.mem_cons_self⟩
  unblank := fun c hc => isBlank_digit (h c hc)

theorem digits_digitString (n : Nat) :
    (Decimal.digitString n).toList ≠ [] ∧ ∀ c ∈ (Decimal.digitString n).toList, c.isDigit := by
  have h : (Decimal.digitString n).toList = Nat.toDigits 10 n := Nat.toList_repr
  rw [h]
  exact ⟨by simp, fun c hc => Nat.isDigit_of_mem_toDigits (by decide) (by decide) hc⟩

theorem digits_zeros (n : Nat) : ∀ c ∈ (Decimal.zeros n).toList, c.isDigit := by
  intro c hc
  have : c = '0' := by
    simp [Decimal.zeros] at hc
    exact hc.2
  rw [this]
  rfl

theorem digital_positional (d : Decimal) : Digital d.positional.toList := by
  obtain ⟨hne, hd⟩ := digits_digitString d.digits
  have hz : ∀ n, ∀ c ∈ (Decimal.zeros n).toList, isBlank c = false :=
    fun n c hc => isBlank_digit (digits_zeros n c hc)
  have hb : ∀ c ∈ (Decimal.digitString d.digits).toList, isBlank c = false :=
    fun c hc => isBlank_digit (hd c hc)
  unfold Decimal.positional
  split
  · split
    · exact digital_of_digits (by decide) (List.all_eq_true.1 (by decide))
    · rw [String.toList_append]
      exact (digital_of_digits hne hd).append (hz _)
  · next e _ =>
    generalize (Decimal.digitString d.digits).toList = text at hne hd hb
    simp only
    split
    · simp only [String.toList_append, String.toList_ofList, List.append_assoc]
      have h0 : Digital "0.".toList := ⟨⟨'0', ['.'], rfl, rfl⟩, unblank_of_all (by decide)⟩
      exact h0.append (List.forall_mem_append.2 ⟨hz _, hb⟩)
    · next hlen =>
      simp only [String.toList_append, String.toList_ofList, List.append_assoc]
      have htake : text.take (text.length - (e + 1)) ≠ [] := by
        intro h
        have := congrArg List.length h
        simp only [List.length_take, List.length_nil] at this
        omega
      refine (digital_of_digits htake fun c hc => hd c (List.mem_of_mem_take hc)).append ?_
      exact List.forall_mem_append.2
        ⟨unblank_of_all (by decide), fun c hc => hb c (List.mem_of_mem_drop hc)⟩

theorem digital_scientific (d : Decimal) : Digital d.scientific.toList := by
  obtain ⟨hne, hd⟩ := digits_digitString d.digits
  unfold Decimal.scientific
  generalize (Decimal.digitString d.digits).toList = text at hne hd
  have htake : text.take 1 ≠ [] := by simpa using hne
  simp only [String.toList_append, String.toList_ofList, List.append_assoc]
  refine (digital_of_digits htake fun c hc => hd c (List.mem_of_mem_take hc)).append ?_
  refine List.forall_mem_append.2 ⟨?_, List.forall_mem_append.2 ⟨?_, ?_⟩⟩
  · split
    · simp
    · simp only [String.toList_append, String.toList_ofList]
      exact List.forall_mem_append.2
        ⟨unblank_of_all (by decide), fun c hc => isBlank_digit (hd c (List.mem_of_mem_drop hc))⟩
  · split <;> exact unblank_of_all (by decide)
  · exact fun c hc => isBlank_digit ((digits_digitString _).2 c hc)

theorem Digital.numeral {cs : List Char} (h : Digital cs) : Numeral cs where
  head := by
    obtain ⟨c, ds, hcs, hc⟩ := h.head
    exact ⟨c, ds, hcs, .inr hc⟩
  unblank := h.unblank

theorem Digital.negated {cs : List Char} (h : Digital cs) : Numeral ('-' :: cs) where
  head := ⟨'-', cs, rfl, .inl rfl⟩
  unblank := List.forall_mem_cons.2 ⟨rfl, h.unblank⟩

/-- The text of a finite double has the characters of a number. -/
theorem numeral_doubleText (negative : Bool) (m : Nat) (e : Int) :
    Numeral (doubleText (.finite negative m e)).toList := by
  have hbody : ∀ (b : Prop) [Decidable b] (d : Decimal), Digital
      (if b then d.positional ++ (if 0 ≤ d.exponent then ".0" else "")
        else d.scientific).toList := by
    intro b _ d
    split
    · rw [String.toList_append]
      refine (digital_positional d).append ?_
      split <;> exact unblank_of_all (by decide)
    · exact digital_scientific d
  unfold doubleText
  rw [String.toList_append]
  cases negative with
  | true => exact (hbody _ _).negated
  | false => exact (hbody _ _).numeral

theorem numeral_integer (n : Int) : Numeral (toString n).toList := by
  cases n with
  | ofNat n =>
    obtain ⟨hne, hd⟩ := digits_digitString n
    exact (digital_of_digits hne hd).numeral
  | negSucc n =>
    obtain ⟨hne, hd⟩ := digits_digitString (n + 1)
    have h : (toString (Int.negSucc n)).toList = '-' :: (Decimal.digitString (n + 1)).toList :=
      String.toList_append
    rw [h]
    exact (digital_of_digits hne hd).negated

theorem spells_double {x : Binary64} (h : read (doubleText x) = .ok (.double x)) :
    Spells (doubleText x).toList (.double x) := by
  cases x with
  | finite negative m e => exact (numeral_doubleText negative m e).spells h
  | infinite negative =>
    have hn : read "null" = .ok .null := rfl
    cases hn.symm.trans h
  | nan =>
    have hn : read "null" = .ok .null := rfl
    cases hn.symm.trans h

/-- The text of a value starts with no blank and no closing bracket. -/
theorem compact_head (v : Json) :
    ∃ c cs, (compact v).toList = c :: cs ∧ isBlank c = false ∧ c ≠ ']' := by
  have hnumeral : ∀ cs : List Char, Numeral cs →
      ∃ c ds, cs = c :: ds ∧ isBlank c = false ∧ c ≠ ']' := by
    intro cs hcs
    obtain ⟨c, ds, hds, hc⟩ := hcs.head
    refine ⟨c, ds, hds, hcs.unblank c (hds ▸ List.mem_cons_self), ?_⟩
    rcases hc with rfl | hc
    · decide
    · exact digit_ne hc rfl
  cases v with
  | null => exact ⟨_, _, rfl, rfl, by decide⟩
  | boolean b => cases b <;> exact ⟨_, _, rfl, rfl, by decide⟩
  | integer n => exact hnumeral _ (numeral_integer n)
  | double x =>
    cases x with
    | finite negative m e => exact hnumeral _ (numeral_doubleText negative m e)
    | infinite _ | nan =>
      exact ⟨'n', ['u', 'l', 'l'], by simp [compact, doubleText], rfl, by decide⟩
  | string s => exact ⟨_, _, quote_toList s, rfl, by decide⟩
  | array items => exact ⟨'[', _, by simp [compact]; rfl, rfl, by decide⟩
  | object members => exact ⟨'\x7b', _, by simp [compact]; rfl, rfl, by decide⟩

theorem step_arrayStart {c : Char} (hb : isBlank c = false) (hc : c ≠ ']') (frames : List Frame) :
    step ⟨.arrayStart, frames⟩ c = step ⟨.value, .array [] :: frames⟩ c := by
  simp [step, between, hb, hc]

/-- The items of an array from some item on, with the items before it. -/
theorem run_items {v : Json} {items : List Json}
    (h : ∀ w ∈ v :: items, Spells (compact w).toList (normal w)) (before : List Json)
    (frames : List Frame) (rest : List Char) :
    run ⟨.value, .array before :: frames⟩
        ((",".intercalate (compactItems (v :: items))).toList ++ ']' :: rest)
      = run (deliver (.array (before.reverse ++ normalItems (v :: items))) frames) rest := by
  induction items generalizing v before with
  | nil =>
    have hv := h v List.mem_cons_self (.array before :: frames) ']' rest rfl
    simp only [compactItems, String.intercalate_singleton, hv, normalItems]
    simp [deliver, step, between, isBlank, Except.bind]
  | cons w items ih =>
    have hv := h v List.mem_cons_self (.array before :: frames) ','
      ((",".intercalate (compactItems (w :: items))).toList ++ ']' :: rest) rfl
    have hi := ih (fun u hu => h u (List.mem_cons_of_mem v hu)) (normal v :: before)
    have htext : (",".intercalate (compactItems (v :: w :: items))).toList
        = (compact v).toList ++ ',' :: (",".intercalate (compactItems (w :: items))).toList := by
      simp [compactItems, String.intercalate_cons_cons]
    rw [htext, List.append_assoc, List.cons_append, hv]
    have hnext : run (deliver (normal v) (.array before :: frames))
        (',' :: ((",".intercalate (compactItems (w :: items))).toList ++ ']' :: rest))
        = run ⟨.value, .array (normal v :: before) :: frames⟩
          ((",".intercalate (compactItems (w :: items))).toList ++ ']' :: rest) := rfl
    rw [hnext, hi]
    simp [normalItems]

/-- An array reads back if its items do. -/
theorem closed_array {items : List Json}
    (h : ∀ v ∈ items, Spells (compact v).toList (normal v)) :
    Closed (compact (.array items)).toList (normal (.array items)) := by
  intro frames rest
  have htext : (compact (.array items)).toList ++ rest
      = '[' :: ((",".intercalate (compactItems items)).toList ++ ']' :: rest) := by
    simp [compact]
  have hopen : ∀ cs, run ⟨.value, frames⟩ ('[' :: cs) = run ⟨.arrayStart, frames⟩ cs :=
    fun _ => rfl
  rw [htext, hopen]
  cases items with
  | nil => rfl
  | cons v items =>
    have hi := run_items h [] frames rest
    obtain ⟨c, cs, hc, hb, hne⟩ := compact_head v
    have hhead : ∃ ds, (",".intercalate (compactItems (v :: items))).toList = c :: ds := by
      cases items with
      | nil => exact ⟨cs, by simp [compactItems, hc]⟩
      | cons w items => exact ⟨_, by simp [compactItems, String.intercalate_cons_cons, hc]; rfl⟩
    obtain ⟨ds, hds⟩ := hhead
    rw [hds] at hi ⊢
    rw [List.cons_append, run_cons, step_arrayStart hb hne]
    exact hi

/-- The name of a member with its colon. -/
theorem run_name (before : List (String × Json)) (name : String) (frames : List Frame)
    (rest : List Char) :
    run ⟨.objectName before, frames⟩ ((quote name).toList ++ ':' :: rest)
      = run ⟨.value, .member before name :: frames⟩ rest := by
  rw [quote_toList, List.cons_append, List.append_assoc]
  exact run_quoted (scanning_name before frames) name (':' :: rest)

/-- The members of an object from some member on, with the members before it. -/
theorem run_members {name : String} {v : Json} {members : List (String × Json)}
    (h : ∀ m ∈ (name, v) :: members, Spells (compact m.2).toList (normal m.2))
    (before : List (String × Json)) (frames : List Frame) (rest : List Char) :
    run ⟨.objectName before, frames⟩
        ((",".intercalate (compactMembers ((name, v) :: members))).toList ++ '\x7d' :: rest)
      = run (deliver (.object (normalMembers before ((name, v) :: members))) frames) rest := by
  induction members generalizing name v before with
  | nil =>
    have hv := h _ List.mem_cons_self (.member before name :: frames) '\x7d' rest rfl
    have htext : (",".intercalate (compactMembers [(name, v)])).toList
        = (quote name).toList ++ ':' :: (compact v).toList := by
      simp [compactMembers]
    rw [htext, List.append_assoc, List.cons_append, run_name, hv]
    rfl
  | cons m members ih =>
    obtain ⟨name', w⟩ := m
    have hv := h _ List.mem_cons_self (.member before name :: frames) ','
      ((",".intercalate (compactMembers ((name', w) :: members))).toList ++ '\x7d' :: rest) rfl
    have hi := ih (fun m hm => h m (List.mem_cons_of_mem _ hm))
      (insertMember name (normal v) before)
    have htext : (",".intercalate (compactMembers ((name, v) :: (name', w) :: members))).toList
        = (quote name).toList ++ ':' :: ((compact v).toList
          ++ ',' :: (",".intercalate (compactMembers ((name', w) :: members))).toList) := by
      simp [compactMembers, String.intercalate_cons_cons]
    rw [htext, List.append_assoc, List.cons_append, run_name, List.append_assoc, List.cons_append,
      hv, normalMembers, ← hi]
    rfl

/-- An object reads back if the values of its members do. -/
theorem closed_object {members : List (String × Json)}
    (h : ∀ m ∈ members, Spells (compact m.2).toList (normal m.2)) :
    Closed (compact (.object members)).toList (normal (.object members)) := by
  intro frames rest
  have htext : (compact (.object members)).toList ++ rest
      = '\x7b' :: ((",".intercalate (compactMembers members)).toList ++ '\x7d' :: rest) := by
    simp [compact]
  have hopen : ∀ cs, run ⟨.value, frames⟩ ('\x7b' :: cs) = run ⟨.objectStart, frames⟩ cs :=
    fun _ => rfl
  rw [htext, hopen]
  cases members with
  | nil => rfl
  | cons m members =>
    obtain ⟨name, v⟩ := m
    have hi := run_members h [] frames rest
    have hhead : ∃ ds, (",".intercalate (compactMembers ((name, v) :: members))).toList
        = '"' :: ds := by
      cases members with
      | nil => exact ⟨_, by simp [compactMembers, quote_toList]; rfl⟩
      | cons m members =>
        exact ⟨_, by simp [compactMembers, String.intercalate_cons_cons, quote_toList]; rfl⟩
    obtain ⟨ds, hds⟩ := hhead
    rw [hds] at hi ⊢
    exact hi

mutual
/-- A value reads back inside of any containers. The induction is on the value. -/
theorem spells_compact : ∀ v : Json, Legible v → Spells (compact v).toList (normal v)
  | .null, _ => closed_null.spells
  | .boolean b, _ => (closed_boolean b).spells
  | .integer n, h => (numeral_integer n).spells h
  | .double _, h => spells_double h
  | .string s, _ => (closed_quote s).spells
  | .array items, h => (closed_array (spells_items items h)).spells
  | .object members, h => (closed_object (spells_members members h)).spells
termination_by structural v => v
theorem spells_items : ∀ items : List Json, LegibleItems items →
    ∀ v ∈ items, Spells (compact v).toList (normal v)
  | [], _ => nofun
  | v :: items, h => List.forall_mem_cons.2 ⟨spells_compact v h.1, spells_items items h.2⟩
termination_by structural l => l
theorem spells_members : ∀ members : List (String × Json), LegibleMembers members →
    ∀ m ∈ members, Spells (compact m.2).toList (normal m.2)
  | [], _ => nofun
  | (_, v) :: members, h =>
    List.forall_mem_cons.2 ⟨spells_compact v h.1, spells_members members h.2⟩
termination_by structural l => l
end

/-- A written object reads as the object with its members in order. -/
theorem read_compact_object {members : List (String × Json)} (h : Legible (.object members)) :
    read (compact (.object members)) = .ok (normal (.object members)) := by
  have hc := closed_object (spells_members members h) [] []
  rw [List.append_nil] at hc
  rw [read_eq, hc]
  rfl

mutual
/-- The members of each object stand in increasing order of their names, each name once. -/
def Ordered : Json → Prop
  | .array items => OrderedItems items
  | .object members => members.Pairwise (fun m n => m.1 < n.1) ∧ OrderedMembers members
  | _ => True
termination_by structural v => v
def OrderedItems : List Json → Prop
  | [] => True
  | v :: rest => Ordered v ∧ OrderedItems rest
termination_by structural l => l
def OrderedMembers : List (String × Json) → Prop
  | [] => True
  | (_, v) :: rest => Ordered v ∧ OrderedMembers rest
termination_by structural l => l
end

theorem insertMember_last {α : Type} {name : String} {v : α} {members : List (String × α)}
    (h : ∀ m ∈ members, m.1 < name) : insertMember name v members = members ++ [(name, v)] := by
  induction members with
  | nil => rfl
  | cons m members ih =>
    obtain ⟨n, w⟩ := m
    have hlt : n < name := h (n, w) List.mem_cons_self
    have hne : name ≠ n := by
      rintro rfl
      exact String.lt_irrefl _ hlt
    rw [insertMember, if_neg (String.lt_asymm hlt), if_neg hne,
      ih fun m hm => h m (List.mem_cons_of_mem _ hm), List.cons_append]

/-- Members that are in order stay where they are. -/
theorem normalMembers_of_ordered {placed rest : List (String × Json)}
    (ho : (placed ++ rest).Pairwise fun m n => m.1 < n.1) (hn : ∀ m ∈ rest, m.2.normal = m.2) :
    normalMembers placed rest = placed ++ rest := by
  induction rest generalizing placed with
  | nil => simp [normalMembers]
  | cons m rest ih =>
    obtain ⟨name, v⟩ := m
    have hbefore : ∀ m ∈ placed, m.1 < name := fun m hm =>
      (List.pairwise_append.1 ho).2.2 m hm (name, v) List.mem_cons_self
    have happ : placed ++ (name, v) :: rest = (placed ++ [(name, v)]) ++ rest := by simp
    rw [happ] at ho ⊢
    rw [normalMembers, hn (name, v) List.mem_cons_self, insertMember_last hbefore,
      ih ho fun m hm => hn m (List.mem_cons_of_mem _ hm)]

mutual
/-- A value whose members are in order reads back as it is. -/
theorem normal_of_ordered : ∀ v : Json, Ordered v → v.normal = v
  | .null, _ | .boolean _, _ | .integer _, _ | .double _, _ | .string _, _ => rfl
  | .array items, h => congrArg Json.array (normalItems_of_ordered items h)
  | .object members, h => congrArg Json.object
    (normalMembers_of_ordered h.1 (normal_of_orderedMembers members h.2))
termination_by structural v => v
theorem normalItems_of_ordered : ∀ items : List Json, OrderedItems items →
    normalItems items = items
  | [], _ => rfl
  | v :: items, h => by
    rw [normalItems, normal_of_ordered v h.1, normalItems_of_ordered items h.2]
termination_by structural l => l
theorem normal_of_orderedMembers : ∀ members : List (String × Json), OrderedMembers members →
    ∀ m ∈ members, m.2.normal = m.2
  | [], _ => nofun
  | (_, v) :: members, h =>
    List.forall_mem_cons.2 ⟨normal_of_ordered v h.1, normal_of_orderedMembers members h.2⟩
termination_by structural l => l
end

end Untangle.Json
