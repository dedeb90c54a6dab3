import SwarmManager.Proofs.Orders

/-!
# Faithful codecs

A codec keeps a value if it writes it plainly and reads it back.  It is faithful
if it keeps all values, so whatever it has read it can write and read again.

Faithfulness is put together as codecs are.  The rules for codecs, fields and
layouts (`Codec.Faithful`, `Field.Faithful`, `Layout.Faithful`) have the names of
what they are about, and a record is faithful if its fields are and their names
differ: `Layout.codec_faithful`.  What a faithful codec says of whole texts is
collected in `Codec.Faithful.losesNothing`.
-/

namespace SwarmManager.Json

set_option autoImplicit false

/-! ## Keeping a value -/

/-- A codec keeps a value if it writes it plainly and reads it back, in whatever order
the members of objects are written. -/
structure Codec.Keeps {α : Type} (codec : Codec α) (value : α) : Prop where
  plain : (codec.encode value).isPlain = true
  decode : ∀ given : Value, (codec.encode value).Reordered given → codec.decode given = .ok value

/-- A codec is faithful if it keeps all values. -/
structure Codec.Faithful {α : Type} (codec : Codec α) : Prop where
  keeps : ∀ value : α, codec.Keeps value

/-- A codec is solid if it writes no value as `null`. -/
def Codec.Solid {α : Type} (codec : Codec α) : Prop := ∀ value : α, codec.encode value ≠ .null

namespace Codec

variable {α β : Type} {codec : Codec α}

/-! ## Basic types -/

theorem Faithful.string : string.Faithful := by
  refine ⟨fun text => ⟨rfl, ?_⟩⟩
  intro given same
  rw [show given = Value.ofText text from same]
  rfl

theorem Faithful.bool : bool.Faithful := by
  refine ⟨fun truth => ⟨rfl, ?_⟩⟩
  intro given same
  rw [show given = Value.bool truth from same]
  rfl

theorem Faithful.bounded {low high : Int} {toInt : α → Int} {ofInt : Int → α}
    (within : ∀ value, low ≤ toInt value ∧ toInt value < high)
    (inverse : ∀ value, ofInt (toInt value) = value) :
    (bounded low high toInt ofInt).Faithful := by
  refine ⟨fun value => ⟨rfl, ?_⟩⟩
  intro given same
  rw [show given = Value.integer (toInt value) from same]
  show (if low ≤ toInt value ∧ toInt value < high then _ else _) = _
  rw [if_pos (within value), inverse]

theorem Faithful.uint16 : uint16.Faithful := by
  apply Faithful.bounded
  · intro number
    have small := number.toNat_lt
    omega
  · exact fun _ => UInt16.ofNat_toNat

theorem Faithful.uint32 : uint32.Faithful := by
  apply Faithful.bounded
  · intro number
    have small := number.toNat_lt
    omega
  · exact fun _ => UInt32.ofNat_toNat

theorem Faithful.uint64 : uint64.Faithful := by
  apply Faithful.bounded
  · intro number
    have small := number.toNat_lt
    omega
  · exact fun _ => UInt64.ofNat_toNat

theorem Faithful.int32 : int32.Faithful := by
  apply Faithful.bounded
  · exact fun number => ⟨number.le_toInt, number.toInt_lt⟩
  · exact Int32.ofInt_toInt

theorem Faithful.int64 : int64.Faithful := by
  apply Faithful.bounded
  · exact fun number => ⟨number.le_toInt, number.toInt_lt⟩
  · exact Int64.ofInt_toInt

/-! ## Optional values, lists and maps -/

theorem Faithful.optional (faithful : codec.Faithful) (solid : codec.Solid) :
    codec.optional.Faithful := by
  refine ⟨fun held => ?_⟩
  cases held with
  | none =>
      refine ⟨rfl, ?_⟩
      intro given same
      rw [show given = Value.null from same]
      rfl
  | some value =>
      have keeps := faithful.keeps value
      refine ⟨keeps.plain, ?_⟩
      intro given reordered
      have written : given ≠ .null := reordered.ne_null (solid value)
      simp only [Codec.optional, keeps.decode given reordered]
      rfl

theorem Faithful.list (faithful : codec.Faithful) : codec.list.Faithful := by
  refine ⟨fun values => ⟨?_, ?_⟩⟩
  · apply Value.isPlain_array
    intro item member
    obtain ⟨value, _, rfl⟩ := List.mem_map.mp member
    exact (faithful.keeps value).plain
  · rintro _ ⟨items, rfl, reordered⟩
    show items.mapM codec.decode = .ok values
    induction values generalizing items with
    | nil =>
        rw [show items = [] from reordered]
        rfl
    | cons first rest ih =>
        obtain ⟨item, more, rfl, head, later⟩ := reordered
        rw [List.mapM_cons, (faithful.keeps first).decode item head, ih more later]
        rfl

/-- The entries of a map are read in their order, on top of smaller ones. -/
theorem exists_foldlM_insertMember {entries : List (String × α)}
    (keeps : ∀ entry ∈ entries, codec.Keeps entry.2) (before : StringMap α)
    (ascending : (before.entries ++ entries).Pairwise fun earlier later => earlier.1 < later.1)
    {given : List (Option String × Value)}
    (reordered : Value.MembersReordered
      (entries.map fun entry => (some entry.1, codec.encode entry.2)) given) :
    ∃ after : StringMap α, after.entries = before.entries ++ entries ∧
      given.foldlM (insertMember codec) before = .ok after := by
  induction entries generalizing before given with
  | nil =>
      rw [show given = [] from reordered]
      exact ⟨before, (List.append_nil _).symm, rfl⟩
  | cons entry rest ih =>
      obtain ⟨key, value⟩ := entry
      obtain ⟨other, more, rfl, head, later⟩ := reordered
      have above : ∀ earlier ∈ before.entries, earlier.1 < key := fun earlier member =>
        (List.pairwise_append.mp ascending).2.2 earlier member (key, value) List.mem_cons_self
      have grown : (before.insert key value).entries = before.entries ++ [(key, value)] :=
        StringMap.insertEntry_of_above value above
      rw [List.append_cons, ← grown] at ascending ⊢
      obtain ⟨after, entries, folded⟩ := ih
        (fun entry member => keeps entry (List.mem_cons_of_mem _ member)) _ ascending later
      refine ⟨after, entries, ?_⟩
      have read : insertMember codec before (some key, other) = .ok (before.insert key value) := by
        rw [insertMember, (keeps (key, value) List.mem_cons_self).decode other head]
        rfl
      rw [List.foldlM_cons, read]
      exact folded

theorem insertMember_eq_ok {map next : StringMap α} {member : Option String × Value} :
    insertMember codec map member = .ok next ↔
      ∃ key value, member.1 = some key ∧ codec.decode member.2 = .ok value ∧
        next = map.insert key value := by
  obtain ⟨_ | key, given⟩ := member
  · exact ⟨nofun, nofun⟩
  · constructor
    · intro read
      obtain ⟨value, decoded, rfl⟩ := exists_of_map_eq_ok read
      exact ⟨key, value, rfl, decoded, rfl⟩
    · rintro ⟨_, value, same, decoded, rfl⟩
      cases same
      rw [insertMember, decoded]
      rfl

/-- Members of different keys may be read into a map in either order. -/
theorem insertMember_comm (map : StringMap α) (one other : Option String × Value)
    (next : StringMap α) (apart : one.1 ≠ other.1)
    (read : (insertMember codec map one >>= (insertMember codec · other)) = .ok next) :
    (insertMember codec map other >>= (insertMember codec · one)) = .ok next := by
  obtain ⟨middle, first, second⟩ := exists_of_bind_eq_ok read
  obtain ⟨key, value, named, decoded, rfl⟩ := insertMember_eq_ok.mp first
  obtain ⟨otherKey, otherValue, otherNamed, otherDecoded, rfl⟩ := insertMember_eq_ok.mp second
  have different : key ≠ otherKey := by
    rintro rfl
    exact apart (named.trans otherNamed.symm)
  rw [insertMember_eq_ok.mpr ⟨otherKey, otherValue, otherNamed, otherDecoded, rfl⟩]
  refine insertMember_eq_ok.mpr ⟨key, value, named, decoded, ?_⟩
  simp only [StringMap.insert, StringMap.mk.injEq]
  exact StringMap.insertEntry_comm (Ne.symm different) _ _ _

theorem Faithful.map (faithful : codec.Faithful) : codec.map.Faithful := by
  refine ⟨fun map => ⟨?_, ?_⟩⟩
  · apply Value.isPlain_ofMembers
    intro member inside
    obtain ⟨entry, _, rfl⟩ := List.mem_map.mp inside
    exact (faithful.keeps entry.2).plain
  · rintro _ ⟨others, shuffled, rfl, reordered, perm⟩
    have distinct : (others.map Prod.fst).Nodup := by
      refine reordered.nodup_keys (List.pairwise_map.mpr (List.pairwise_map.mpr ?_))
      refine map.ascending.imp fun below same => ?_
      exact String.lt_irrefl _ (same ▸ below)
    rw [List.map_map] at reordered
    obtain ⟨after, entries, folded⟩ :=
      exists_foldlM_insertMember (fun entry _ => faithful.keeps entry.2) StringMap.empty
        map.ascending reordered
    have same : after = map := by
      obtain ⟨held, _⟩ := map
      obtain ⟨read, _⟩ := after
      cases entries
      rfl
    rw [same] at folded
    exact foldlM_of_perm insertMember_comm perm distinct folded

/-! ## Named constants and other forms -/

theorem Faithful.variants {nameOf : α → String} {all : List α}
    (found : ∀ constant, all.find? (fun other => nameOf other == nameOf constant) =
      some constant) :
    (variants nameOf all).Faithful := by
  refine ⟨fun constant => ⟨rfl, ?_⟩⟩
  intro given same
  rw [show given = Value.ofText (nameOf constant) from same]
  show variantOfName nameOf all (nameOf constant) = .ok constant
  rw [variantOfName, found]

theorem Faithful.through {toForm : β → α} {ofForm? : α → Option β} (faithful : codec.Faithful)
    (inverse : ∀ value, ofForm? (toForm value) = some value) :
    (codec.through toForm ofForm?).Faithful := by
  refine ⟨fun value => ?_⟩
  have keeps := faithful.keeps (toForm value)
  have goOn {next : α → Except Fault β} : (.ok (toForm value) >>= next) = next (toForm value) := rfl
  refine ⟨keeps.plain, fun given reordered => ?_⟩
  simp only [Codec.through, keeps.decode given reordered, goOn, inverse]

end Codec

/-! ## Fields -/

/-- A field keeps a value if it leaves out only the value it has when it is not
given, and its codec keeps whatever it does not leave out. -/
structure Field.Keeps {α : Type} (field : Field α) (value : α) : Prop where
  hidden : field.isHidden value = true → field.absent = some value
  shown : field.isHidden value = false → field.codec.Keeps value

/-- A field is faithful if it keeps all values. -/
structure Field.Faithful {α : Type} (field : Field α) : Prop where
  keeps : ∀ value : α, field.Keeps value

namespace Field

variable {α : Type} {name : String} {codec : Codec α}

theorem Faithful.required (faithful : codec.Faithful) : (required name codec).Faithful :=
  ⟨fun value => ⟨nofun, fun _ => faithful.keeps value⟩⟩

theorem Faithful.defaulted {value : α} (faithful : codec.Faithful) :
    (defaulted name codec value).Faithful :=
  ⟨fun other => ⟨nofun, fun _ => faithful.keeps other⟩⟩

theorem Faithful.optional (faithful : codec.Faithful) (solid : codec.Solid) :
    (optional name codec).Faithful := by
  refine ⟨fun held => ⟨fun hidden => ?_, fun _ => (faithful.optional solid).keeps held⟩⟩
  exact congrArg some (Option.isNone_iff_eq_none.mp hidden).symm

theorem Faithful.nullable (faithful : codec.Faithful) (solid : codec.Solid) :
    (nullable name codec).Faithful :=
  Faithful.defaulted (faithful.optional solid)

end Field

/-! ## Records -/

namespace Layout

variable {α β τ ρ : Type}

/-- The names of the fields in their order. -/
def names : {τ : Type} → Layout τ → List String
  | _, done => []
  | _, field head rest => head.name :: rest.names

/-- Every field is faithful. -/
inductive Faithful : {τ : Type} → Layout τ → Prop where
  | done : Faithful done
  | field {α β : Type} {head : Field α} {rest : Layout β} (headFaithful : head.Faithful)
      (restFaithful : Faithful rest) : Faithful (field head rest)

/-- A record is written with names of its fields as keys, in their order. -/
theorem keys_sublist_names (layout : Layout τ) (record : τ) :
    ((layout.members record).map Prod.fst).Sublist layout.names := by
  induction layout with
  | done => exact .slnil
  | field head rest ih =>
      obtain ⟨first, others⟩ := record
      rw [members]
      split
      next => exact .cons _ (ih others)
      next => exact .cons_cons _ (ih others)

theorem Faithful.isPlain_of_mem_members {layout : Layout τ} (faithful : layout.Faithful)
    (record : τ) : ∀ member ∈ layout.members record, member.2.isPlain = true := by
  induction faithful with
  | done => exact fun _ member => absurd member List.not_mem_nil
  | field head _ ih =>
      obtain ⟨first, others⟩ := record
      intro member inside
      rw [members] at inside
      split at inside
      next => exact ih others member inside
      next shown =>
        rcases List.mem_cons.mp inside with rfl | later
        · exact ((head.keeps first).shown (Bool.eq_false_iff.mpr shown)).plain
        · exact ih others member later

/-! ### Reading what was written -/

/-- The draft of a first field and of the fields behind it. -/
def joined (head : Field α) {rest : Layout β} (first : Option α) (others : rest.Draft) :
    (field head rest).Draft := (first, others)

/-- A member of another name is read by the fields behind the first one. -/
theorem readMember_of_ne {head : Field α} {rest : Layout β} {member : Option String × Value}
    (other : member.1 ≠ some head.name) (first : Option α) (draft : rest.Draft) :
    (field head rest).readMember (joined head first draft) member =
      (rest.readMember draft member).map (joined head first) := by
  obtain ⟨_ | key, value⟩ := member
  · rfl
  have different : key ≠ head.name := fun same => other (congrArg some same)
  simp only [readMember, store, joined, if_neg different]
  cases rest.store key value draft with
  | some result => rfl
  | none =>
      simp only [Option.map_none]
      split <;> rfl

/-- A member of the first field's name is read by that field, once. -/
theorem readMember_of_name {head : Field α} {rest : Layout β} {value : Value} {first : Option α}
    {draft : rest.Draft} {next : (field head rest).Draft} :
    (field head rest).readMember (joined head first draft) (some head.name, value) = .ok next ↔
      first = none ∧ ∃ content, head.codec.decode value = .ok content ∧
        next = joined head (some content) draft := by
  simp only [readMember, store, joined, if_pos]
  cases first with
  | some => exact ⟨nofun, nofun⟩
  | none =>
      constructor
      · intro read
        obtain ⟨content, decoded, rfl⟩ := exists_of_map_eq_ok read
        exact ⟨rfl, content, decoded, rfl⟩
      · rintro ⟨_, content, decoded, rfl⟩
        rw [decoded]
        rfl

theorem foldlM_readMember_of_ne {head : Field α} {rest : Layout β}
    {members : List (Option String × Value)}
    (others : ∀ member ∈ members, member.1 ≠ some head.name) (first : Option α)
    (draft : rest.Draft) :
    members.foldlM (field head rest).readMember (joined head first draft) =
      (members.foldlM rest.readMember draft).map (joined head first) := by
  induction members generalizing draft with
  | nil => rfl
  | cons member more ih =>
      rw [List.foldlM_cons, List.foldlM_cons, readMember_of_ne (others member List.mem_cons_self)]
      cases rest.readMember draft member with
      | error => rfl
      | ok next => exact ih (fun member inside => others member (List.mem_cons_of_mem _ inside)) next

/-- Members of different keys may be read into a record in either order. -/
theorem readMember_comm {layout : Layout τ} (draft : layout.Draft)
    (one other : Option String × Value) (next : layout.Draft) (apart : one.1 ≠ other.1)
    (read : (layout.readMember draft one >>= (layout.readMember · other)) = .ok next) :
    (layout.readMember draft other >>= (layout.readMember · one)) = .ok next := by
  induction layout with
  | done =>
      obtain ⟨_, first, second⟩ := exists_of_bind_eq_ok read
      show (done.readMember draft other >>= fun _ => done.readMember draft one) = _
      rw [show done.readMember draft other = .ok next from second]
      exact first
  | field head rest ih =>
      obtain ⟨first, draft, rfl⟩ : ∃ first behind, draft = joined head first behind :=
        ⟨draft.1, draft.2, rfl⟩
      obtain ⟨middle, oneRead, otherRead⟩ := exists_of_bind_eq_ok read
      by_cases oneNamed : one.1 = some head.name
      · have otherNamed : other.1 ≠ some head.name := fun same => apart (oneNamed.trans same.symm)
        obtain ⟨_, value⟩ := one
        cases oneNamed
        obtain ⟨rfl, content, decoded, rfl⟩ := readMember_of_name.mp oneRead
        rw [readMember_of_ne otherNamed] at otherRead ⊢
        obtain ⟨later, inner, rfl⟩ := exists_of_map_eq_ok otherRead
        rw [inner]
        exact readMember_of_name.mpr ⟨rfl, content, decoded, rfl⟩
      rw [readMember_of_ne oneNamed] at oneRead
      obtain ⟨afterOne, oneInner, rfl⟩ := exists_of_map_eq_ok oneRead
      by_cases otherNamed : other.1 = some head.name
      · obtain ⟨_, value⟩ := other
        cases otherNamed
        obtain ⟨rfl, content, decoded, rfl⟩ := readMember_of_name.mp otherRead
        rw [readMember_of_name.mpr ⟨rfl, content, decoded, rfl⟩]
        show (field head rest).readMember (joined head (some content) draft) one = _
        rw [readMember_of_ne oneNamed, oneInner]
        rfl
      · rw [readMember_of_ne otherNamed] at otherRead ⊢
        obtain ⟨afterBoth, otherInner, rfl⟩ := exists_of_map_eq_ok otherRead
        have swapped := ih draft afterBoth (by rw [oneInner]; exact otherInner)
        obtain ⟨afterOther, firstInner, lastInner⟩ := exists_of_bind_eq_ok swapped
        rw [firstInner]
        show (field head rest).readMember (joined head first afterOther) one = _
        rw [readMember_of_ne oneNamed, lastInner]
        rfl

/-- A record that was written is read back member by member. -/
theorem Faithful.exists_draft {layout : Layout τ} (faithful : layout.Faithful)
    (names : layout.names.Nodup) {record : τ} {given : List (Option String × Value)}
    (reordered : Value.MembersReordered
      ((layout.members record).map fun member => (some member.1, member.2)) given) :
    ∃ draft : layout.Draft, given.foldlM layout.readMember layout.blank = .ok draft ∧
      layout.finish draft = .ok record := by
  induction faithful generalizing given with
  | done =>
      rw [show given = [] from reordered]
      exact ⟨(), rfl, rfl⟩
  | @field _ _ head rest headFaithful _ ih =>
      obtain ⟨first, others⟩ := record
      obtain ⟨fresh, restNames⟩ := List.nodup_cons.mp names
      have keeps := headFaithful.keeps first
      have apart {later : List (Option String × Value)} (reordered : Value.MembersReordered
          ((rest.members others).map fun member => (some member.1, member.2)) later) :
          ∀ member ∈ later, member.1 ≠ some head.name := by
        intro member inside same
        have key := List.mem_map_of_mem (f := Prod.fst) inside
        rw [reordered.map_fst, List.map_map, same] at key
        obtain ⟨field, written, named⟩ := List.mem_map.mp key
        have listed : field.1 ∈ rest.names :=
          (keys_sublist_names rest others).subset (List.mem_map_of_mem written)
        exact fresh (Option.some.inj named ▸ listed)
      rw [members] at reordered
      split at reordered
      next hidden =>
        obtain ⟨draft, folded, finished⟩ := ih restNames reordered
        have read := foldlM_readMember_of_ne (apart reordered) none rest.blank
        rw [folded] at read
        refine ⟨joined head none draft, read, ?_⟩
        simp only [finish, joined, Field.missing, keeps.hidden hidden, finished]
        rfl
      next shown =>
        obtain ⟨other, more, rfl, written, later⟩ := reordered
        obtain ⟨draft, folded, finished⟩ := ih restNames later
        have start : (Layout.field head rest).readMember (Layout.field head rest).blank
            (some head.name, other) = .ok (joined head (some first) rest.blank) :=
          readMember_of_name.mpr
            ⟨rfl, first, (keeps.shown (Bool.eq_false_iff.mpr shown)).decode other written, rfl⟩
        have rest := foldlM_readMember_of_ne (apart later) (some first) rest.blank
        rw [folded] at rest
        refine ⟨joined head (some first) draft, ?_, ?_⟩
        · rw [List.foldlM_cons, start]
          exact rest
        · simp only [finish, joined, finished]
          rfl

/-! ### Codecs of records -/

/-- Records are never written as `null`. -/
theorem codec_solid (layout : Layout τ) (pack : τ → ρ) (unpack : ρ → τ) :
    (layout.codec pack unpack).Solid := nofun

/-- A codec of records is faithful if its fields are and have different names. -/
theorem codec_faithful {layout : Layout τ} {pack : τ → ρ} {unpack : ρ → τ}
    (names : layout.names.Nodup) (faithful : layout.Faithful)
    (inverse : ∀ record, pack (unpack record) = record) :
    (layout.codec pack unpack).Faithful := by
  refine ⟨fun record => ⟨?_, ?_⟩⟩
  · exact Value.isPlain_ofMembers (faithful.isPlain_of_mem_members (unpack record))
  · rintro _ ⟨others, shuffled, rfl, reordered, perm⟩
    obtain ⟨draft, folded, finished⟩ := faithful.exists_draft names reordered
    have distinct : (others.map Prod.fst).Nodup :=
      reordered.nodup_keys (names.sublist (keys_sublist_names layout (unpack record)))
    have read := foldlM_of_perm readMember_comm perm distinct folded
    simp only [codec, read]
    show (layout.finish draft >>= fun values => pure (pack values)) = _
    rw [finished]
    exact congrArg Except.ok (inverse record)

end Layout

/-! ## Whole texts -/

namespace Codec

variable {α : Type} {codec : Codec α}

/-- A text is written for a value if it is the text of what the codec writes, with the
members of objects in any order. -/
def Writes (codec : Codec α) (value : α) (text : String) : Prop :=
  ∃ given : Value, (codec.encode value).Reordered given ∧ given.text = text

/-- A text is read as a value, whether it is given as characters or as bytes. -/
def ReadsAs (codec : Codec α) (text : String) (value : α) : Prop :=
  codec.ofText text = .ok value ∧ codec.ofBytes text.toUTF8 = .ok value

/-- No text is written for two values. -/
def TellsApart (codec : Codec α) (left right : α) : Prop :=
  ∀ text : String, ¬ (codec.Writes left text ∧ codec.Writes right text)

/-- The texts of a codec lose nothing: every text written for a value is read as that
value, different values are told apart, and whatever any text at all is read as can be
written and read again. -/
structure LosesNothing (codec : Codec α) : Prop where
  toText : ∀ value, codec.ReadsAs (codec.toText value) value
  reads : ∀ value text, codec.Writes value text → codec.ReadsAs text value
  apart : ∀ left right, left ≠ right → codec.TellsApart left right
  ofText_again : ∀ text value again, codec.ofText text = .ok value →
    codec.Writes value again → codec.ReadsAs again value
  ofBytes_again : ∀ bytes value again, codec.ofBytes bytes = .ok value →
    codec.Writes value again → codec.ReadsAs again value

theorem writes_toText (codec : Codec α) (value : α) : codec.Writes value (codec.toText value) :=
  ⟨codec.encode value, Value.reordered_refl _, rfl⟩

theorem Keeps.readsAs {value : α} {text : String} (keeps : codec.Keeps value)
    (writes : codec.Writes value text) : codec.ReadsAs text value := by
  obtain ⟨given, reordered, rfl⟩ := writes
  have plain := Value.isPlain_of_reordered _ given reordered keeps.plain
  constructor
  · rw [ofText, Document.ofText_text plain, ofDocument, keeps.decode given reordered]
    rfl
  · rw [ofBytes, Document.ofBytes_text plain, ofDocument, keeps.decode given reordered]
    rfl

/-- The texts of a faithful codec lose nothing. -/
theorem Faithful.losesNothing (faithful : codec.Faithful) : codec.LosesNothing where
  toText value := (faithful.keeps value).readsAs (codec.writes_toText value)
  reads value text writes := (faithful.keeps value).readsAs writes
  apart left right different := by
    rintro text ⟨leftWrites, rightWrites⟩
    have fromLeft := ((faithful.keeps left).readsAs leftWrites).1
    have fromRight := ((faithful.keeps right).readsAs rightWrites).1
    exact different (Except.ok.inj (fromLeft.symm.trans fromRight))
  ofText_again _ value _ _ writes := (faithful.keeps value).readsAs writes
  ofBytes_again _ value _ _ writes := (faithful.keeps value).readsAs writes

end Codec

end SwarmManager.Json
