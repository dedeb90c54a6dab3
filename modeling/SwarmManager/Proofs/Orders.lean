import SwarmManager.Proofs.Documents

/-!
# The order of members

The members of an object say the same in any order.  `Value.Reordered` relates
values that differ only in such orders, at any depth, and a codec may write any of
them: a map that is kept in no order is written in whatever order it comes.

Reading members in turn does not depend on their order if reading two of them does
not: `foldlM_of_perm`.  Maps and records are read in that way, the former by
`insertMember_comm`, the latter by `Layout.readMember_comm`.
-/

namespace SwarmManager.Json

set_option autoImplicit false

/-! ## Values in another order -/

namespace Value

mutual
/-- Whether a value differs from another one only in the order of the members of
their objects. -/
def Reordered : Value → Value → Prop
  | .array items, given => ∃ others, given = .array others ∧ ItemsReordered items others
  | .object members, given =>
      ∃ others shuffled, given = .object shuffled ∧ MembersReordered members others ∧
        others.Perm shuffled
  | .null, given => given = .null
  | .bool truth, given => given = .bool truth
  | .integer number, given => given = .integer number
  | .real, given => given = .real
  | .string text, given => given = .string text
  | .broken, given => given = .broken

/-- Whether values differ from others, one by one, only in orders of members. -/
def ItemsReordered : List Value → List Value → Prop
  | [], others => others = []
  | value :: rest, others =>
      ∃ other more, others = other :: more ∧ value.Reordered other ∧ ItemsReordered rest more

/-- Whether members have the keys of others, one by one, and values that differ only
in orders of members. -/
def MembersReordered :
    List (Option String × Value) → List (Option String × Value) → Prop
  | [], others => others = []
  | (key, value) :: rest, others =>
      ∃ other more, others = (key, other) :: more ∧ value.Reordered other ∧
        MembersReordered rest more
end

mutual
theorem reordered_refl : ∀ value : Value, value.Reordered value
  | .array items => ⟨items, rfl, itemsReordered_refl items⟩
  | .object members => ⟨members, members, rfl, membersReordered_refl members, .refl _⟩
  | .null => rfl
  | .bool _ => rfl
  | .integer _ => rfl
  | .real => rfl
  | .string _ => rfl
  | .broken => rfl

theorem itemsReordered_refl : ∀ items : List Value, ItemsReordered items items
  | [] => rfl
  | value :: rest => ⟨value, rest, rfl, reordered_refl value, itemsReordered_refl rest⟩

theorem membersReordered_refl :
    ∀ members : List (Option String × Value), MembersReordered members members
  | [] => rfl
  | (_, value) :: rest => ⟨value, rest, rfl, reordered_refl value, membersReordered_refl rest⟩
end

theorem Reordered.ne_null {value given : Value} (reordered : value.Reordered given)
    (solid : value ≠ .null) : given ≠ .null := by
  rintro rfl
  cases value with
  | null => exact solid rfl
  | array => obtain ⟨_, impossible, _⟩ := reordered; cases impossible
  | object => obtain ⟨_, _, impossible, _⟩ := reordered; cases impossible
  | bool => cases reordered
  | integer => cases reordered
  | real => cases reordered
  | string => cases reordered
  | broken => cases reordered

theorem membersArePlain_iff {members : List (Option String × Value)} :
    membersArePlain members = true ↔
      ∀ member ∈ members, member.1.isSome = true ∧ member.2.isPlain = true := by
  induction members with
  | nil => simp [membersArePlain]
  | cons member rest ih => simp [membersArePlain, ih, and_assoc]

mutual
theorem isPlain_of_reordered : ∀ (value given : Value), value.Reordered given →
    value.isPlain = true → given.isPlain = true
  | .array items, _, ⟨others, same, reordered⟩, plain => by
      rw [same]
      exact arePlain_of_reordered items others reordered plain
  | .object members, _, ⟨others, shuffled, same, reordered, perm⟩, plain => by
      rw [isPlain] at plain
      have othersPlain := membersArePlain_of_reordered members others reordered plain
      rw [same, isPlain, membersArePlain_iff]
      intro member inside
      exact membersArePlain_iff.mp othersPlain member (perm.mem_iff.mpr inside)
  | .null, _, same, _ => by rw [same]; rfl
  | .bool _, _, same, _ => by rw [same]; rfl
  | .integer _, _, same, _ => by rw [same]; rfl
  | .real, _, _, plain => absurd plain (by simp [isPlain])
  | .string _, _, same, plain => by rw [same]; exact plain
  | .broken, _, _, plain => absurd plain (by simp [isPlain])

theorem arePlain_of_reordered : ∀ items others : List Value, ItemsReordered items others →
    arePlain items = true → arePlain others = true
  | [], _, same, _ => by rw [same]; rfl
  | value :: rest, _, ⟨other, more, same, first, later⟩, plain => by
      rw [arePlain, Bool.and_eq_true] at plain
      rw [same, arePlain, isPlain_of_reordered value other first plain.1,
        arePlain_of_reordered rest more later plain.2]
      rfl

theorem membersArePlain_of_reordered : ∀ members others : List (Option String × Value),
    MembersReordered members others → membersArePlain members = true →
    membersArePlain others = true
  | [], _, same, _ => by rw [same]; rfl
  | (key, value) :: rest, _, ⟨other, more, same, first, later⟩, plain => by
      rw [membersArePlain, Bool.and_eq_true, Bool.and_eq_true] at plain
      rw [same, membersArePlain, plain.1.1, isPlain_of_reordered value other first plain.1.2,
        membersArePlain_of_reordered rest more later plain.2]
      rfl
end

theorem MembersReordered.map_fst {members others : List (Option String × Value)}
    (reordered : MembersReordered members others) :
    others.map Prod.fst = members.map Prod.fst := by
  induction members generalizing others with
  | nil => rw [show others = [] from reordered]
  | cons member rest ih =>
      obtain ⟨other, more, rfl, _, later⟩ := reordered
      rw [List.map_cons, List.map_cons, ih later]

theorem MembersReordered.nodup_keys {members : List (String × Value)}
    {others : List (Option String × Value)}
    (reordered : MembersReordered (members.map fun member => (some member.1, member.2)) others)
    (distinct : (members.map Prod.fst).Nodup) : (others.map Prod.fst).Nodup := by
  have keys : others.map Prod.fst = (members.map Prod.fst).map some := by
    rw [reordered.map_fst, List.map_map, List.map_map]
    rfl
  rw [keys]
  exact List.pairwise_map.mpr (distinct.imp fun different same => different (Option.some.inj same))

end Value

/-! ## Results of reading -/

section Results

variable {ε α β : Type} {first : Except ε α}

theorem exists_of_bind_eq_ok {next : α → Except ε β} {result : β}
    (read : (first >>= next) = .ok result) :
    ∃ value : α, first = .ok value ∧ next value = .ok result := by
  cases first with
  | error => cases read
  | ok value => exact ⟨value, rfl, read⟩

theorem exists_of_map_eq_ok {next : α → β} {result : β} (read : first.map next = .ok result) :
    ∃ value : α, first = .ok value ∧ next value = result := by
  cases first with
  | error => cases read
  | ok value => exact ⟨value, rfl, Except.ok.inj read⟩

end Results

section Folds

variable {ε α β κ : Type} {step : β → α → Except ε β} {before after : β} {left right : List α}

/-- Items of different keys may be read in any order if any two of them may. -/
theorem foldlM_of_perm {key : α → κ}
    (comm : ∀ now one other next, key one ≠ key other →
      (step now one >>= (step · other)) = .ok next → (step now other >>= (step · one)) = .ok next)
    (perm : left.Perm right) (distinct : (left.map key).Nodup)
    (read : left.foldlM step before = .ok after) : right.foldlM step before = .ok after := by
  induction perm generalizing before with
  | nil => exact read
  | cons item _ ih =>
      rw [List.foldlM_cons] at read ⊢
      obtain ⟨next, taken, read⟩ := exists_of_bind_eq_ok read
      rw [taken]
      exact ih (List.nodup_cons.mp distinct).2 read
  | swap one other rest =>
      simp only [List.foldlM_cons] at read ⊢
      obtain ⟨middle, first, read⟩ := exists_of_bind_eq_ok read
      obtain ⟨next, second, read⟩ := exists_of_bind_eq_ok read
      have apart : key other ≠ key one := by
        intro same
        simp [same] at distinct
      have swapped := comm before other one next apart (by rw [first]; exact second)
      obtain ⟨middle, first, second⟩ := exists_of_bind_eq_ok swapped
      rw [first]
      show (step middle other >>= _) = _
      rw [second]
      exact read
  | trans firstPerm _ firstIh secondIh =>
      exact secondIh ((firstPerm.map key).nodup_iff.mp distinct) (firstIh distinct read)

end Folds

end SwarmManager.Json
