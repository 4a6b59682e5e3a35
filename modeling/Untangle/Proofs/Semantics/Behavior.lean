import Mathlib.Data.PFun

/-!
# Behaviors that may jump

A behavior takes a state to another one and ends there in one of several ways, or
it does not end. Loops repeat a behavior until it does not end normally. The two
laws of loops at the end say when the last thing that a loop does can be done
behind it, and when the first one can be left out.
-/
namespace Untangle

inductive Completion (ν : Type) where
  | normal
  | breaks (label : Option String)
  | continues (label : Option String)
  | returns (value : Option ν)
  | throws (value : ν)

namespace Completion

variable {ν : Type}

def broken (label : Option String) : Completion ν → Completion ν
  | .breaks l => if l = label then .normal else .breaks l
  | c => c

/-- What becomes of a `continue` at the end of a round of a loop with these labels. -/
def continued (labels : List String) : Completion ν → Completion ν
  | .continues none => .normal
  | .continues (some l) => if l ∈ labels then .normal else .continues (some l)
  | c => c

theorem broken_of_ne {label : Option String} {c : Completion ν} (hc : c ≠ .breaks label) :
    c.broken label = c := by
  cases c with
  | breaks l => exact if_neg fun h => hc (congrArg breaks h)
  | _ => rfl

theorem broken_self (label : Option String) :
    broken label (.breaks label : Completion ν) = .normal := if_pos rfl

theorem broken_ne (label : Option String) (c : Completion ν) : c.broken label ≠ .breaks label := by
  intro h
  by_cases hc : c = .breaks label
  · rw [hc, broken_self] at h
    cases h
  · rw [broken_of_ne hc] at h
    exact hc h

/-- Leaving a statement ends normally, or as before. -/
theorem broken_eq_or (label : Option String) (c : Completion ν) :
    c.broken label = .normal ∨ c.broken label = c := by
  by_cases hc : c = .breaks label
  · rw [hc]
    exact .inl (broken_self label)
  · exact .inr (broken_of_ne hc)

theorem continued_nil {c : Completion ν} (hc : c ≠ .continues none) : c.continued [] = c := by
  cases c with
  | continues label =>
    cases label with
    | none => exact absurd rfl hc
    | some l => rfl
  | _ => rfl

theorem continued_ne (labels : List String) (c : Completion ν) :
    c.continued labels ≠ .continues none := by
  cases c with
  | continues label =>
    cases label with
    | none => exact nofun
    | some l =>
      intro h
      by_cases hl : l ∈ labels
      · rw [continued, if_pos hl] at h
        cases h
      · rw [continued, if_neg hl] at h
        cases h
  | _ => exact nofun

end Completion

/-- Takes a state to another one and ends in some way, or does not end. -/
abbrev Behavior (σ ν : Type) := σ → Part (σ × Completion ν)

/-- Takes a state to another one and gives a value there or an error, or does not end. -/
abbrev Effect (σ ν α : Type) := σ → Part (σ × Except ν α)

namespace Behavior

variable {σ ν α : Type}

def ends (c : Completion ν) : Behavior σ ν := fun s => .some (s, c)

def skip : Behavior σ ν := ends .normal

def ending (f : Completion ν → Completion ν) (m : Behavior σ ν) : Behavior σ ν :=
  fun s => (m s).map fun r => (r.1, f r.2)

/-- The second behavior follows if the first one ends normally. -/
def andThen (m k : Behavior σ ν) : Behavior σ ν := fun s =>
  (m s).bind fun
    | (t, .normal) => k t
    | r => .some r

/-- The behavior follows if there is a value for it, and else an error is thrown. -/
def after (m : Effect σ ν α) (k : α → Behavior σ ν) : Behavior σ ν := fun s =>
  (m s).bind fun
    | (t, .ok a) => k a t
    | (t, .error x) => .some (t, .throws x)

/-- The second behavior follows if the first one throws. -/
def rescued (m : Behavior σ ν) (k : ν → Behavior σ ν) : Behavior σ ν := fun s =>
  (m s).bind fun
    | (t, .throws x) => k x t
    | r => .some r

/-- The second behavior follows in any case. If it ends normally, the first one counts. -/
def lastly (m k : Behavior σ ν) : Behavior σ ν := fun s =>
  (m s).bind fun r =>
    (k r.1).map fun
      | (t, .normal) => (t, r.2)
      | q => q

def either (test : σ → Bool) (m k : Behavior σ ν) : Behavior σ ν := fun s =>
  if test s then m s else k s

/-- The behavior, or a `break` where the test fails. -/
def guarded (test : σ → Bool) (m : Behavior σ ν) : Behavior σ ν :=
  either test m (ends (.breaks none))

/-- What comes after a round of a loop: the end of the loop, or another round. -/
def turn : σ × Completion ν → (σ × Completion ν) ⊕ σ
  | (s, .normal) => .inr s
  | (s, c) => .inl (s, c.broken none)

/-- Round after round, until one does not end normally. -/
def repeated (round : Behavior σ ν) : Behavior σ ν := PFun.fix fun s => (round s).map turn

section Members

variable {m k : Behavior σ ν} {s t : σ} {c : Completion ν} {r : σ × Completion ν}

theorem mem_ends : r ∈ (ends c : Behavior σ ν) s ↔ r = (s, c) := Part.mem_some_iff

theorem mem_ending {f : Completion ν → Completion ν} :
    r ∈ m.ending f s ↔ ∃ c, (r.1, c) ∈ m s ∧ r.2 = f c := by
  rw [ending, Part.mem_map_iff]
  constructor
  · rintro ⟨q, hq, rfl⟩
    exact ⟨q.2, hq, rfl⟩
  · rintro ⟨c, hc, hr⟩
    exact ⟨(r.1, c), hc, Prod.ext rfl hr.symm⟩

/-- A sequence ends as its second behavior, or as the first one if that does not end normally. -/
theorem mem_andThen :
    r ∈ m.andThen k s ↔ (∃ t, (t, .normal) ∈ m s ∧ r ∈ k t) ∨ r ∈ m s ∧ r.2 ≠ .normal := by
  rw [andThen, Part.mem_bind_iff]
  constructor
  · rintro ⟨⟨t, c⟩, hq, hr⟩
    cases c with
    | normal => exact .inl ⟨t, hq, hr⟩
    | _ =>
      obtain rfl := Part.mem_some_iff.1 hr
      exact .inr ⟨hq, nofun⟩
  · rintro (⟨t, hq, hr⟩ | ⟨hr, hc⟩)
    · exact ⟨(t, .normal), hq, hr⟩
    · refine ⟨r, hr, ?_⟩
      obtain ⟨t, c⟩ := r
      cases c with
      | normal => exact absurd rfl hc
      | _ => exact Part.mem_some _

theorem either_pos {test : σ → Bool} (h : test s = true) : either test m k s = m s := if_pos h

theorem either_neg {test : σ → Bool} (h : test s = false) : either test m k s = k s :=
  if_neg (by rw [h]; exact Bool.false_ne_true)

theorem inr_mem_turn : .inr t ∈ (m s).map turn ↔ (t, .normal) ∈ m s := by
  rw [Part.mem_map_iff]
  constructor
  · rintro ⟨⟨t', c⟩, hq, ht⟩
    cases c with
    | normal => cases ht; exact hq
    | _ => cases ht
  · exact fun h => ⟨_, h, rfl⟩

/-- A loop ends where a round does not end normally. -/
theorem inl_mem_turn :
    .inl r ∈ (m s).map turn ↔ ∃ c, (r.1, c) ∈ m s ∧ c ≠ .normal ∧ r.2 = c.broken none := by
  rw [Part.mem_map_iff]
  constructor
  · rintro ⟨⟨t, c⟩, hq, hr⟩
    cases c with
    | normal => cases hr
    | _ => cases hr; exact ⟨_, hq, nofun, rfl⟩
  · rintro ⟨c, hq, hc, hr⟩
    refine ⟨_, hq, ?_⟩
    cases c with
    | normal => exact absurd rfl hc
    | _ => exact congrArg Sum.inl (Prod.ext rfl hr.symm)

/-- A loop ends where its first round ends, or where it does from there on. -/
theorem mem_repeated :
    r ∈ repeated m s ↔
      (∃ c, (r.1, c) ∈ m s ∧ c ≠ .normal ∧ r.2 = c.broken none) ∨
        ∃ t, (t, .normal) ∈ m s ∧ r ∈ repeated m t := by
  refine PFun.mem_fix_iff.trans (or_congr inl_mem_turn ⟨?_, ?_⟩)
  · rintro ⟨t, ht, hr⟩
    exact ⟨t, inr_mem_turn.1 ht, hr⟩
  · rintro ⟨t, ht, hr⟩
    exact ⟨t, inr_mem_turn.2 ht, hr⟩

theorem repeated_last (hq : (t, c) ∈ m s) (hc : c ≠ .normal) : (t, c.broken none) ∈ repeated m s :=
  mem_repeated.2 (.inl ⟨c, hq, hc, rfl⟩)

/-- A loop goes on with another round where one ends normally. -/
theorem repeated_next (ht : (t, .normal) ∈ m s) (hr : r ∈ repeated m t) : r ∈ repeated m s :=
  mem_repeated.2 (.inr ⟨t, ht, hr⟩)

/-- What holds where a last round starts, and where a round starts if it holds after it, holds where
a loop starts that ends. -/
@[elab_as_elim]
theorem repeated_induction {C : σ → σ × Completion ν → Prop}
    (last : ∀ {s t c}, (t, c) ∈ m s → c ≠ .normal → C s (t, c.broken none))
    (next : ∀ {s t r}, (t, .normal) ∈ m s → C t r → C s r) (hr : r ∈ repeated m s) : C s r := by
  refine PFun.fixInduction' hr (fun s hlast => ?_) fun s t _ ht ih => ?_
  · obtain ⟨c, hq, hc, hrc⟩ := inl_mem_turn.1 hlast
    have hC := last hq hc
    rwa [← hrc] at hC
  · exact next (inr_mem_turn.1 ht) ih

end Members

section Laws

variable {m k l : Behavior σ ν}

theorem skip_andThen : skip.andThen k = k := by
  refine funext fun s => Part.ext fun r => mem_andThen.trans ⟨?_, fun hr => ?_⟩
  · rintro (⟨t, ht, hr⟩ | ⟨hr, hc⟩)
    · cases mem_ends.1 ht
      exact hr
    · cases mem_ends.1 hr
      exact absurd rfl hc
  · exact .inl ⟨s, Part.mem_some _, hr⟩

theorem andThen_skip : m.andThen skip = m := by
  refine funext fun s => Part.ext fun r => mem_andThen.trans ⟨?_, fun hr => ?_⟩
  · rintro (⟨t, ht, hr⟩ | ⟨hr, -⟩)
    · cases mem_ends.1 hr
      exact ht
    · exact hr
  · by_cases hc : r.2 = .normal
    · refine .inl ⟨r.1, ?_, mem_ends.2 (Prod.ext rfl hc)⟩
      rwa [← hc]
    · exact .inr ⟨hr, hc⟩

/-- Behind a behavior only the states count that it ends in normally. -/
theorem andThen_congr {s : σ} (h : ∀ t, (t, .normal) ∈ m s → k t = l t) :
    m.andThen k s = m.andThen l s := by
  refine Part.ext fun r => mem_andThen.trans (.trans (or_congr_left ?_) mem_andThen.symm)
  exact exists_congr fun t => and_congr_right fun ht => by rw [h t ht]

/-- It does not matter how a sequence is put in brackets. -/
theorem andThen_assoc : (m.andThen k).andThen l = m.andThen (k.andThen l) := by
  funext s
  rw [andThen, andThen, Part.bind_assoc]
  refine congrArg (m s).bind (funext fun r => ?_)
  obtain ⟨t, c⟩ := r
  cases c with
  | normal => rfl
  | _ => exact Part.bind_some _ _

end Laws

/-- Whenever the behavior ends, it does so in this way. -/
def Ends (Q : Completion ν → Prop) (m : Behavior σ ν) : Prop := ∀ s, ∀ r ∈ m s, Q r.2

namespace Ends

variable {Q Q' : Completion ν → Prop} {m k : Behavior σ ν}

theorem ends {c : Completion ν} (hc : Q c) : (Behavior.ends c : Behavior σ ν).Ends Q := by
  intro s r hr
  rwa [mem_ends.1 hr]

theorem mono (hm : m.Ends Q) (hQ : ∀ c, Q c → Q' c) : m.Ends Q' := fun s r hr => hQ r.2 (hm s r hr)

theorem ending {f : Completion ν → Completion ν} (hm : m.Ends Q) (hf : ∀ c, Q c → Q' (f c)) :
    (m.ending f).Ends Q' := by
  intro s r hr
  obtain ⟨c, hc, hrc⟩ := mem_ending.1 hr
  rw [hrc]
  exact hf c (hm s _ hc)

/-- A sequence ends in the ways of its two parts. -/
theorem andThen (hm : m.Ends Q) (hk : k.Ends Q) : (m.andThen k).Ends Q := by
  intro s r hr
  rcases mem_andThen.1 hr with ⟨t, -, hr⟩ | ⟨hr, -⟩
  · exact hk t r hr
  · exact hm s r hr

/-- A behavior that does not end normally is the last one. -/
theorem andThen_right (hk : k.Ends Q) (hQ : ∀ c, c ≠ .normal → Q c) : (m.andThen k).Ends Q := by
  intro s r hr
  rcases mem_andThen.1 hr with ⟨t, -, hr⟩ | ⟨-, hc⟩
  · exact hk t r hr
  · exact hQ r.2 hc

/-- What follows a value ends as it does, or an error is thrown. -/
theorem after {e : Effect σ ν α} {k : α → Behavior σ ν} (hthrows : ∀ x, Q (.throws x))
    (hk : ∀ a, (k a).Ends Q) : (Behavior.after e k).Ends Q := by
  intro s r hr
  obtain ⟨⟨t, a | a⟩, -, hr⟩ := Part.mem_bind_iff.1 hr
  · rw [Part.mem_some_iff.1 hr]
    exact hthrows a
  · exact hk a t r hr

theorem rescued {k : ν → Behavior σ ν} (hm : m.Ends Q) (hk : ∀ x, (k x).Ends Q) :
    (m.rescued k).Ends Q := by
  intro s r hr
  obtain ⟨⟨t, c⟩, hq, hr⟩ := Part.mem_bind_iff.1 hr
  cases c with
  | throws x => exact hk x t r hr
  | _ =>
    rw [Part.mem_some_iff.1 hr]
    exact hm s _ hq

theorem lastly (hm : m.Ends Q) (hk : k.Ends Q) : (m.lastly k).Ends Q := by
  intro s r hr
  obtain ⟨q, hq, hr⟩ := Part.mem_bind_iff.1 hr
  obtain ⟨⟨t, c⟩, ht, rfl⟩ := (Part.mem_map_iff _).1 hr
  cases c with
  | normal => exact hm s q hq
  | _ => exact hk q.1 _ ht

theorem either {p : σ → Bool} (hm : m.Ends Q) (hk : k.Ends Q) : (either p m k).Ends Q := by
  intro s r hr
  cases hp : p s with
  | true =>
    rw [either_pos hp] at hr
    exact hm s r hr
  | false =>
    rw [either_neg hp] at hr
    exact hk s r hr

/-- No `break` without a label leaves a loop. -/
theorem repeated (hm : m.Ends Q) (hnormal : Q .normal) :
    (Behavior.repeated m).Ends fun c => Q c ∧ c ≠ .breaks none := by
  intro s r hr
  refine repeated_induction ?_ (fun _ h => h) hr
  intro s t c hq _
  refine ⟨?_, c.broken_ne none⟩
  rcases c.broken_eq_or none with hc | hc
  · rwa [hc]
  · rw [hc]
    exact hm s _ hq

end Ends

section Loops

variable {m k l : Behavior σ ν} {test : σ → Bool} {s : σ} {r : σ × Completion ν}

theorem ending_eq_self {f : Completion ν → Completion ν} (hm : m.Ends fun c => f c = c) :
    m.ending f = m := by
  refine funext fun s => Part.ext fun r => mem_ending.trans ⟨?_, fun hr => ?_⟩
  · rintro ⟨c, hc, hr⟩
    have hfixed : f c = c := hm s _ hc
    rwa [← hfixed, ← hr] at hc
  · exact ⟨r.2, hr, (hm s r hr).symm⟩

theorem guarded_true (m : Behavior σ ν) (h : test s = true) : guarded test m s = m s := either_pos h

theorem guarded_false (m : Behavior σ ν) (h : test s = false) :
    guarded test m s = .some (s, .breaks none) := either_neg h

theorem repeated_guarded_false (m : Behavior σ ν) (h : test s = false) :
    (s, .normal) ∈ repeated (guarded test m) s := by
  refine repeated_last (c := .breaks none) ?_ nofun
  rw [guarded_false m h]
  exact Part.mem_some _

def exit (k : Behavior σ ν) : Behavior σ ν := k.andThen (ends (.breaks none))

/-- A way out does not end normally. -/
theorem exit_ends (k : Behavior σ ν) : k.exit.Ends (· ≠ .normal) :=
  Ends.andThen_right (.ends nofun) fun _ hc => hc

/-- Where the way out is taken, the loop ends as if it had ended before. -/
theorem repeated_of_exit (hk : k.Ends (· ≠ .breaks none)) (hexit : ∀ r ∈ k.exit s, r ∈ m s)
    (hr : r ∈ k s) : r ∈ repeated m s := by
  by_cases hnormal : r.2 = .normal
  · have hbreak : (r.1, .breaks none) ∈ k.exit s := by
      refine mem_andThen.2 (.inl ⟨r.1, ?_, Part.mem_some _⟩)
      rwa [← hnormal]
    have hloop := repeated_last (hexit _ hbreak) nofun
    rwa [Completion.broken_self, ← hnormal] at hloop
  · have hloop := repeated_last (hexit r (mem_andThen.2 (.inr ⟨hr, hnormal⟩))) hnormal
    rwa [Completion.broken_of_ne (hk s r hr)] at hloop

/-- A way out of a loop does behind the loop what it did inside. -/
theorem mem_of_mem_exit {t : σ} {c : Completion ν} (hk : k.Ends (· ≠ .breaks none))
    (hq : (t, c) ∈ k.exit s) : (t, c.broken none) ∈ k s := by
  rcases mem_andThen.1 hq with ⟨u, hu, hbreak⟩ | ⟨hq, -⟩
  · cases mem_ends.1 hbreak
    rwa [Completion.broken_self]
  · rwa [Completion.broken_of_ne (hk s _ hq)]

/-- Where rounds may break, what comes behind the loop is nothing. -/
theorem mem_of_break {t : σ} (hm : k = skip ∨ m.Ends (· ≠ .breaks none))
    (hq : (t, .breaks none) ∈ m s) : r ∈ k t ↔ r = (t, .normal) := by
  rcases hm with rfl | hm
  · exact mem_ends
  · exact absurd rfl (hm s _ hq)

/-- What the loop does last is done behind the loop that only tests. -/
theorem mem_andThen_of_mem_repeated (hk : k.Ends (· ≠ .breaks none))
    (hm : k = skip ∨ m.Ends (· ≠ .breaks none)) (hr : r ∈ repeated (either test m k.exit) s) :
    r ∈ (repeated (guarded test m)).andThen k s := by
  refine repeated_induction ?_ ?_ hr
  · intro s t c hq hc
    cases htest : test s with
    | true =>
      rw [either_pos htest, ← guarded_true m htest] at hq
      have hloop := repeated_last hq hc
      by_cases hbreak : c = .breaks none
      · -- A round that breaks leaves the one loop and comes to `k` behind the other.
        subst hbreak
        rw [guarded_true m htest] at hq
        rw [Completion.broken_self] at hloop ⊢
        exact mem_andThen.2 (.inl ⟨t, hloop, (mem_of_break hm hq).2 rfl⟩)
      · rw [Completion.broken_of_ne hbreak] at hloop ⊢
        exact mem_andThen.2 (.inr ⟨hloop, hc⟩)
    | false =>
      rw [either_neg htest] at hq
      exact mem_andThen.2 (.inl ⟨s, repeated_guarded_false m htest, mem_of_mem_exit hk hq⟩)
  · intro s t r ht hr
    cases htest : test s with
    | true =>
      rw [either_pos htest, ← guarded_true m htest] at ht
      refine mem_andThen.2 ((mem_andThen.1 hr).imp ?_ (.imp_left (repeated_next ht)))
      exact .imp fun u => .imp_left (repeated_next ht)
    | false =>
      rw [either_neg htest] at ht
      exact absurd rfl (exit_ends k s _ ht)

/-- If the loop that only tests ends normally, what is behind it can be done in it. -/
theorem mem_repeated_of_guarded (hk : k.Ends (· ≠ .breaks none))
    (hm : k = skip ∨ m.Ends (· ≠ .breaks none)) (hr : r ∈ repeated (guarded test m) s) :
    (r.2 = .normal → ∀ q ∈ k r.1, q ∈ repeated (either test m k.exit) s) ∧
      (r.2 ≠ .normal → r ∈ repeated (either test m k.exit) s) := by
  refine repeated_induction ?_ ?_ hr
  · intro s t c hq hc
    cases htest : test s with
    | true =>
      rw [guarded_true m htest] at hq
      have hlast : (t, c.broken none) ∈ repeated (either test m k.exit) s := by
        refine repeated_last ?_ hc
        rwa [either_pos htest]
      refine ⟨fun hnormal q hr => ?_, fun _ => hlast⟩
      by_cases hbreak : c = .breaks none
      · -- both loops end here, and `k` behind the second one does nothing
        subst hbreak
        rwa [(mem_of_break hm hq).1 hr]
      · exact absurd ((Completion.broken_of_ne hbreak).symm.trans hnormal) hc
    | false =>
      rw [guarded_false m htest] at hq
      cases Part.mem_some_iff.1 hq
      refine ⟨fun _ r hr => repeated_of_exit hk (fun q hq => ?_) hr, fun h => absurd rfl h⟩
      rwa [either_neg htest]
  · intro s t q ht ih
    cases htest : test s with
    | true =>
      have hnext : (t, .normal) ∈ either test m k.exit s := by
        rwa [either_pos htest, ← guarded_true m htest]
      exact ⟨fun hq r hr => repeated_next hnext (ih.1 hq r hr),
        fun hq => repeated_next hnext (ih.2 hq)⟩
    | false =>
      rw [guarded_false m htest] at ht
      cases Part.mem_some_iff.1 ht

/-- What a loop does last, where its test fails, can be done behind it. This must not break itself,
and if the rounds may break it must be nothing. -/
theorem repeated_either_exit (hk : k.Ends (· ≠ .breaks none))
    (hm : k = skip ∨ m.Ends (· ≠ .breaks none)) :
    repeated (either test m k.exit) = (repeated (guarded test m)).andThen k := by
  refine funext fun s => Part.ext fun r => ⟨mem_andThen_of_mem_repeated hk hm, fun hr => ?_⟩
  rcases mem_andThen.1 hr with ⟨t, ht, hr⟩ | ⟨hr, hc⟩
  · exact (mem_repeated_of_guarded hk hm ht).1 rfl r hr
  · exact (mem_repeated_of_guarded hk hm hr).2 hc

/-- Half a round that ends where the way out is not taken is a whole one. -/
theorem mem_andThen_either_skip {t : σ} (ht : (t, .normal) ∈ m s) (htest : test t = true) :
    (t, .normal) ∈ m.andThen (either test skip k) s := by
  refine mem_andThen.2 (.inl ⟨t, ht, ?_⟩)
  rw [either_pos htest]
  exact Part.mem_some _

/-- A test at the end of each round that leaves the loop is a test in front of the next round. -/
theorem mem_repeated_either_of_andThen (hk : k.Ends (· ≠ .normal)) (hs : test s = true)
    (hr : r ∈ repeated (m.andThen (either test skip k)) s) : r ∈ repeated (either test m k) s := by
  revert hs
  refine repeated_induction ?_ ?_ hr
  · intro s t c hq hc hs
    rcases mem_andThen.1 hq with ⟨u, hu, hq⟩ | ⟨hq, -⟩
    · have hnext : (u, .normal) ∈ either test m k s := by rwa [either_pos hs]
      refine repeated_next hnext (repeated_last ?_ hc)
      cases htest : test u with
      | true =>
        rw [either_pos htest] at hq
        cases mem_ends.1 hq
        exact absurd rfl hc
      | false => rwa [either_neg htest] at hq ⊢
    · exact repeated_last (by rwa [either_pos hs]) hc
  · intro s t r ht ih hs
    rcases mem_andThen.1 ht with ⟨u, hu, ht⟩ | ⟨-, hc⟩
    · cases htest : test u with
      | true =>
        rw [either_pos htest] at ht
        cases mem_ends.1 ht
        exact repeated_next (by rwa [either_pos hs]) (ih htest)
      | false =>
        rw [either_neg htest] at ht
        exact absurd rfl (hk u _ ht)
    · exact absurd rfl hc

/-- The loop that tests first is seen from a state in which the other one has done half a round. -/
theorem mem_repeated_andThen_of_half {t : σ} (hk : k.Ends (· ≠ .normal))
    (hr : r ∈ repeated (either test m k) t) :
    ∀ s, (t, .normal) ∈ m s → r ∈ repeated (m.andThen (either test skip k)) s := by
  refine repeated_induction ?_ ?_ hr
  · intro t u c hq hc s ht
    cases htest : test t with
    | true =>
      rw [either_pos htest] at hq
      refine repeated_next (mem_andThen_either_skip ht htest) (repeated_last ?_ hc)
      exact mem_andThen.2 (.inr ⟨hq, hc⟩)
    | false =>
      rw [either_neg htest] at hq
      refine repeated_last (mem_andThen.2 (.inl ⟨t, ht, ?_⟩)) hc
      rwa [either_neg htest]
  · intro t u r hu ih s ht
    cases htest : test t with
    | true =>
      rw [either_pos htest] at hu
      exact repeated_next (mem_andThen_either_skip ht htest) (ih t hu)
    | false =>
      rw [either_neg htest] at hu
      exact absurd rfl (hk t _ hu)

/-- A way out after the first half of a round is as good as one before it, if it is not taken at the
start. -/
theorem repeated_andThen_either (hk : k.Ends (· ≠ .normal)) (hs : test s = true) :
    repeated (m.andThen (either test skip k)) s = repeated (either test m k) s := by
  refine Part.ext fun r => ⟨mem_repeated_either_of_andThen hk hs, fun hr => ?_⟩
  rcases mem_repeated.1 hr with ⟨c, hq, hc, hrc⟩ | ⟨t, ht, hr⟩
  · rw [either_pos hs] at hq
    exact mem_repeated.2 (.inl ⟨c, mem_andThen.2 (.inr ⟨hq, hc⟩), hc, hrc⟩)
  · rw [either_pos hs] at ht
    exact mem_repeated_andThen_of_half hk hr s ht

/-- The states in which rounds of a loop start. -/
def Rounds (m : Behavior σ ν) : σ → σ → Prop := Relation.ReflTransGen fun s t => (t, .normal) ∈ m s

/-- No round starts behind a way out. -/
theorem Rounds.guarded {t : σ} (h : (either test m k.exit).Rounds s t) :
    (guarded test m).Rounds s t := by
  refine Relation.ReflTransGen.mono (fun u v hv => ?_) s t h
  cases htest : test u with
  | true => rwa [either_pos htest, ← guarded_true m htest] at hv
  | false =>
    rw [either_neg htest] at hv
    exact absurd rfl (exit_ends k u _ hv)

/-- Loops agree if their rounds do, wherever the one comes to. -/
theorem repeated_congr (h : ∀ t, m.Rounds s t → m t = k t) : repeated m s = repeated k s := by
  have hnext : ∀ {s t : σ}, (∀ u, m.Rounds s u → m u = k u) → (t, .normal) ∈ m s →
      ∀ u, m.Rounds t u → m u = k u :=
    fun h ht u hu => h u (.head ht hu)
  refine Part.ext fun r => ⟨fun hr => ?_, fun hr => ?_⟩
  · revert h
    refine repeated_induction ?_ ?_ hr
    · intro s t c hq hc h
      rw [h s .refl] at hq
      exact repeated_last hq hc
    · intro s t r ht ih h
      have hloop := ih (hnext h ht)
      rw [h s .refl] at ht
      exact repeated_next ht hloop
  · revert h
    refine repeated_induction ?_ ?_ hr
    · intro s t c hq hc h
      rw [← h s .refl] at hq
      exact repeated_last hq hc
    · intro s t r ht ih h
      rw [← h s .refl] at ht
      exact repeated_next ht (ih (hnext h ht))

end Loops
end Behavior
end Untangle
