import Mathlib.Data.List.Forall2
import Untangle.Proofs.Syntax.RoundTrip
import Untangle.Proofs.Syntax.Shape

/-!
# Which values are programs

Whether a value reads as a program is seen at its root: it has a kind, a list of
statements and perhaps a source type. Of each item in the list one statement is
made, and no item makes the reading fail.
-/
namespace Untangle

/-- A source type is given by its name, or by an object with the name for its only member. -/
def Json.NamesSourceType (v : Json) : Prop :=
  ∃ name ∈ ["script", "module"], v = .string name ∨ v = .object [(name, .null)]

/-- What is asked of the root of a program. -/
structure Json.IsProgram (v : Json) : Prop where
  kind : v.member? "type" = some (.string "Program")
  body : ∃ items, v.member? "body" = some (.array items)
  sourceType : ∀ w, v.member? "sourceType" = some w → w.NamesSourceType

namespace Program

theorem sourceTypeOfText_ok_iff (s : String) :
    (∃ t, sourceTypeOfText s = .ok t) ↔ s ∈ ["script", "module"] := by
  have hname : (Spelled.ofText? s : Option SourceType).isSome ↔ s ∈ ["script", "module"] := by
    rw [Spelled.ofText?, List.isSome_find?, List.any_eq_true]
    simp [Spelled.all, Spelled.text, SourceType.text, eq_comm (b := s)]
  rw [← hname, sourceTypeOfText]
  cases (Spelled.ofText? s : Option SourceType) <;> simp

/-- A source type is read from a value that names it, and from no other. -/
theorem sourceTypeOfJson_ok_iff (v : Json) :
    (∃ t, sourceTypeOfJson v = .ok t) ↔ v.NamesSourceType := by
  unfold sourceTypeOfJson
  split
  · next s =>
    rw [sourceTypeOfText_ok_iff]
    simp [Json.NamesSourceType]
  · next s w =>
    have hname : Json.NamesSourceType (.object [(s, w)]) ↔
        s ∈ ["script", "module"] ∧ w = .null := by
      constructor
      · rintro ⟨name, hs, h | h⟩
        · cases h
        · cases h
          exact ⟨hs, rfl⟩
      · rintro ⟨hs, rfl⟩
        exact ⟨s, hs, .inr rfl⟩
    rw [hname, ← sourceTypeOfText_ok_iff]
    cases sourceTypeOfText s with
    | error fault => simp [bind, Except.bind]
    | ok t => cases w <;> simp [bind, Except.bind, pure, Except.pure, throw, throwThe,
        MonadExceptOf.throw, Json.isNull]
  · next members hsingle =>
    have hmany : ¬ Json.NamesSourceType (.object members) := by
      rintro ⟨name, -, h | h⟩
      · cases h
      · exact hsingle name .null (Json.object.inj h)
    simp [hmany]
  · next htext hsingle _ =>
    have hother : ¬ v.NamesSourceType := by
      rintro ⟨name, -, rfl | rfl⟩
      · exact htext name rfl
      · exact hsingle name .null rfl
    simp [hother]

/-- The members of a root are looked at in turn, and each of them may fail on its own. -/
theorem ofMembers_ok_iff (members : List (String × Json)) :
    (∃ p, ofMembers members = .ok p) ↔ (∃ items, members.lookup "body" = some (.array items)) ∧
      ∀ w, members.lookup "sourceType" = some w → w.NamesSourceType := by
  constructor
  · rintro ⟨p, hp⟩
    obtain ⟨items, hitems, -⟩ := body_of_ofMembers hp
    refine ⟨⟨items, hitems⟩, fun w hw => (sourceTypeOfJson_ok_iff w).1 ?_⟩
    cases ht : sourceTypeOfJson w with
    | ok t => exact ⟨t, rfl⟩
    | error fault =>
      simp only [ofMembers, hitems, hw, ht] at hp
      cases hp
  · rintro ⟨⟨items, hitems⟩, hsource⟩
    cases hw : members.lookup "sourceType" with
    | none =>
      simp only [ofMembers, hitems, hw]
      exact ⟨_, rfl⟩
    | some w =>
      obtain ⟨t, ht⟩ := (sourceTypeOfJson_ok_iff w).2 (hsource w hw)
      simp only [ofMembers, hitems, hw, ht]
      exact ⟨_, rfl⟩

/-- A value reads as a program exactly if its root is one. Then there is one statement for each
item in the list, which keeps the item: it is of the kind that the item has by the shape of its
fields, and an item without such a kind is in it as it was. What stands in place of an expression
or of a member of an object, wherever that is, is kept in the same way. -/
theorem reads_iff_isProgram (v : Json) :
    ((∃ p, ofJson v = .ok p) ↔ v.IsProgram) ∧
      (∀ p, ofJson v = .ok p → ∃ items, v.member? "body" = some (.array items) ∧
        List.Forall₂ Statement.Retains items p.body) ∧
      ∀ w, Expression.Retains w (.ofJson w) ∧ Member.Retains w (Reading.ofJson w).member := by
  refine ⟨⟨?_, ?_⟩, ?_, fun w => ⟨Expression.retains_ofJson w, Member.retains_member w⟩⟩
  · rintro ⟨p, hp⟩
    obtain ⟨members, rfl, hkind, hp⟩ := (ofJson_eq_ok_iff v p).1 hp
    obtain ⟨hbody, hsource⟩ := (ofMembers_ok_iff members).1 ⟨p, hp⟩
    exact ⟨hkind, hbody, hsource⟩
  · rintro ⟨hkind, hbody, hsource⟩
    cases v with
    | object members =>
      obtain ⟨p, hp⟩ := (ofMembers_ok_iff members).2 ⟨hbody, hsource⟩
      exact ⟨p, (ofJson_eq_ok_iff _ p).2 ⟨members, rfl, hkind, hp⟩⟩
    | _ => cases hkind
  · intro p hp
    obtain ⟨members, rfl, -, hp⟩ := (ofJson_eq_ok_iff v p).1 hp
    obtain ⟨items, hitems, hbody⟩ := body_of_ofMembers hp
    refine ⟨items, hitems, ?_⟩
    rw [hbody, List.forall₂_map_right_iff]
    exact List.forall₂_same.2 fun item _ => Statement.retains_ofJson item

end Program
end Untangle
