import Mathlib.Data.List.Nodup
import PostStore.Proofs.Json.Skipping
/-!
# Structures are read exactly

An object is read into slots, one for each member of the structure.  What a run has read agrees
with the values that it leads to, and it counts: a name stands as often among those that were read
as its slot has been filled, and a slot is filled once.  So a structure is read from an object in
which every member has its name once, or from a list of the values in order, and from nothing else.
-/

namespace PostStore.Json

open Grammar Text

/-! ## Slots -/

/-- The names of some members, as bytes. -/
def names (members : List Member) : List Bytes := members.map fun m => utf8 m.name

/-- The slots that have been filled hold the given values. -/
def Slots.Agree : (members : List Member) → Slots members → Values members → Prop
  | [], _, _ => True
  | _ :: ms, (slot, slots), (value, values) =>
    (∀ found, slot = some found → found = value) ∧ Slots.Agree ms slots values

/-- The names of the members whose slots have not been filled. -/
def Slots.missing : (members : List Member) → Slots members → List Bytes
  | [], _ => []
  | m :: ms, (none, slots) => utf8 m.name :: Slots.missing ms slots
  | _ :: ms, (some _, slots) => Slots.missing ms slots

theorem Slots.agree_empty (members : List Member) (values : Values members) :
    Slots.Agree members (Slots.empty members) values := by
  induction members with
  | nil => trivial
  | cons m ms ih => exact ⟨nofun, ih values.2⟩

theorem Slots.missing_empty (members : List Member) :
    Slots.missing members (Slots.empty members) = names members := by
  induction members with
  | nil => rfl
  | cons m ms ih => rw [Slots.empty, Slots.missing, ih, names, names, List.map_cons]

/-- The slots give the values when every one of them has been filled. -/
theorem Slots.values_eq_ok {members : List Member} {slots : Slots members}
    {values : Values members} :
    Slots.values members slots = .ok values ↔
      Slots.missing members slots = [] ∧ Slots.Agree members slots values := by
  induction members with
  | nil => exact ⟨fun _ => ⟨rfl, trivial⟩, fun _ => rfl⟩
  | cons m ms ih =>
    obtain ⟨slot, slots⟩ := slots
    obtain ⟨value, values⟩ := values
    cases slot with
    | none =>
      constructor
      · nofun
      · rintro ⟨none, _⟩
        cases none
    | some found =>
      constructor
      · intro all
        rw [Slots.values] at all
        split at all
        · rename_i rest
          cases all
          obtain ⟨none, agree⟩ := ih.1 rest
          refine ⟨none, ?_, agree⟩
          intro _ same
          cases same
          rfl
        · cases all
      · rintro ⟨none, same, agree⟩
        obtain rfl := same found rfl
        simp only [Slots.values, ih.2 ⟨none, agree⟩]

theorem Slots.subset_missing {members : List Member} (slots : Slots members) {name : Bytes}
    (missing : name ∈ Slots.missing members slots) : name ∈ names members := by
  induction members with
  | nil => exact missing
  | cons m ms ih =>
    obtain ⟨slot, slots⟩ := slots
    cases slot with
    | none =>
      rcases List.mem_cons.1 missing with rfl | missing
      · exact List.mem_cons_self
      · exact List.mem_cons_of_mem _ (ih slots missing)
    | some found => exact List.mem_cons_of_mem _ (ih slots missing)

/-- When no name is missing, all slots have been filled. -/
theorem Slots.missing_eq_nil {members : List Member} {slots : Slots members}
    (none : ∀ n ∈ names members, (Slots.missing members slots).count n = 0) :
    Slots.missing members slots = [] := by
  apply List.eq_nil_iff_forall_not_mem.2
  intro n missing
  exact List.count_eq_zero.1 (none n (Slots.subset_missing slots missing)) missing

/-! ## Objects -/

/-- What stands behind the colon of a member: for a member of the structure its value, and else
something that is passed over. -/
def Stands : (members : List Member) → Values members → (name : Bytes) → Bytes → Bytes → Prop
  | [], _, _, t, t' => skipValue t = .ok t'
  | m :: ms, (value, values), name, t, t' =>
    if utf8 m.name = name then m.read t = .ok (value, t') else Stands ms values name t t'

theorem utf8_eq_iff {text text' : String} : utf8 text = utf8 text' ↔ text = text' :=
  ⟨utf8_inj, congrArg utf8⟩

section Objects

variable {members : List Member} {values : Values members}

/-- What a member was read from stands there, and what had been read before is kept. -/
theorem stands_of_readMember {name : String} {slots slots' : Slots members} {t t' : Bytes}
    (read : readMember name members slots t = .ok (slots', t'))
    (agree : Slots.Agree members slots' values) :
    Slots.Agree members slots values ∧
      ∃ t1, Space t (58 :: t1) ∧ Stands members values (utf8 name) t1 t' := by
  induction members with
  | nil =>
    rw [readMember] at read
    split at read
    · cases read
    · rename_i colon
      split at read
      · cases read
      · rename_i skip
        cases read
        exact ⟨trivial, _, skipColon_eq_ok.1 colon, skip⟩
  | cons m ms ih =>
    obtain ⟨slot, slots⟩ := slots
    obtain ⟨value, values⟩ := values
    simp only [Stands, utf8_eq_iff]
    unfold readMember at read
    split at read
    · rename_i same
      simp only [if_pos same]
      split at read
      · cases read
      · split at read
        · cases read
        · rename_i colon
          split at read
          · cases read
          · rename_i found
            cases read
            obtain ⟨same, agree⟩ := agree
            obtain rfl := same _ rfl
            refine ⟨⟨?_, agree⟩, _, skipColon_eq_ok.1 colon, found⟩
            intro _ filled
            cases filled
    · rename_i other
      simp only [if_neg other]
      split at read
      · cases read
      · rename_i rest
        cases read
        obtain ⟨agree', stands⟩ := ih rest agree.2
        exact ⟨⟨agree.1, agree'⟩, stands⟩

/-- Reading a member fills its slot and no other. -/
theorem count_missing_of_readMember {name : String} {slots slots' : Slots members} {t t' : Bytes}
    (read : readMember name members slots t = .ok (slots', t')) {n : Bytes}
    (known : utf8 name = n → n ∈ names members) :
    (Slots.missing members slots).count n =
      (Slots.missing members slots').count n + if utf8 name == n then 1 else 0 := by
  induction members with
  | nil =>
    have other : utf8 name ≠ n := fun same => nomatch known same
    rw [beq_false_of_ne other]
    rfl
  | cons m ms ih =>
    obtain ⟨slot, slots⟩ := slots
    unfold readMember at read
    split at read
    · rename_i same
      split at read
      · cases read
      · split at read
        · cases read
        · split at read
          · cases read
          · cases read
            rw [Slots.missing, Slots.missing, same, List.count_cons]
    · rename_i other
      split at read
      · cases read
      · rename_i rest
        cases read
        have step := ih rest fun same => by
          rcases List.mem_cons.1 (known same) with first | member
          · rw [← same] at first
            exact absurd (utf8_inj first).symm other
          · exact member
        cases slot with
        | none => rw [Slots.missing, Slots.missing, List.count_cons, List.count_cons, step]; omega
        | some found => exact step

/-- A member whose slot is free is read, and what has been read still agrees. -/
theorem exists_readMember (distinct : (names members).Nodup) {name : String}
    {slots : Slots members} {t t1 t' : Bytes} (agree : Slots.Agree members slots values)
    (free : utf8 name ∈ names members → utf8 name ∈ Slots.missing members slots)
    (colon : Space t (58 :: t1)) (stands : Stands members values (utf8 name) t1 t') :
    ∃ slots', readMember name members slots t = .ok (slots', t') ∧
      Slots.Agree members slots' values := by
  have skip := skipColon_eq_ok.2 colon
  induction members with
  | nil =>
    have passed : skipValue t1 = .ok t' := stands
    exact ⟨(), by simp only [readMember, skip, passed], trivial⟩
  | cons m ms ih =>
    obtain ⟨slot, slots⟩ := slots
    obtain ⟨value, values⟩ := values
    rw [names, List.map_cons, List.nodup_cons] at distinct
    simp only [Stands, utf8_eq_iff] at stands
    by_cases same : m.name = name
    · rw [if_pos same] at stands
      cases slot with
      | none =>
        refine ⟨(some value, slots), ?_, ?_, agree.2⟩
        · simp only [readMember, if_pos same, skip, stands]
        · intro found eq
          cases eq
          rfl
      | some found =>
        -- the slot is taken, so the name would have to be that of a later member
        rw [← same] at free
        have later := Slots.subset_missing slots (free List.mem_cons_self)
        exact absurd later distinct.1
    · rw [if_neg same] at stands
      have free' : utf8 name ∈ names ms → utf8 name ∈ Slots.missing ms slots := by
        intro member
        have missing := free (List.mem_cons_of_mem _ member)
        cases slot with
        | none =>
          rcases List.mem_cons.1 missing with first | missing
          · exact absurd (utf8_inj first).symm same
          · exact missing
        | some found => exact missing
      obtain ⟨slots', read, agree'⟩ := ih distinct.2 agree.2 free' stands
      refine ⟨(slot, slots'), ?_, agree.1, agree'⟩
      simp only [readMember, if_neg same, read]

/-- The way to the next name is the closing bracket, or the name. -/
theorem nextName_eq_ok {first : Bool} {b : UInt8} {t t' : Bytes} :
    nextName first t = .ok (b :: t') ↔
      (b = 125 ∧ Space t (125 :: t')) ∨ (b = 34 ∧ NameAt first t t') := by
  constructor
  · intro next
    unfold nextName at next
    split at next
    · cases next
    · rename_i c rest eq
      have space := space_of_skipSpace eq
      split_ifs at next with closer starts quote comma
      · cases next
        rw [closer] at space
        exact .inl ⟨closer, space⟩
      · cases next
        rw [quote] at space
        rw [starts]
        exact .inr ⟨quote, .first space⟩
      · rw [comma] at space
        rw [Bool.eq_false_iff.2 starts]
        split at next
        · cases next
        · rename_i eq'
          have space' := space_of_skipSpace eq'
          split_ifs at next with quote
          cases next
          rw [quote] at space'
          exact .inr ⟨quote, .next space space'⟩
  · rintro (⟨rfl, space⟩ | ⟨rfl, opens⟩)
    · rw [nextName, space.skipSpace_eq_cons (by decide)]
      rfl
    · cases opens with
      | first space =>
        rw [nextName, space.skipSpace_eq_cons (by decide)]
        rfl
      | next comma space =>
        rw [nextName, comma.skipSpace_eq_cons (by decide)]
        simp only [space.skipSpace_eq_cons (by decide)]
        rfl

/-- **What an object was read from is one**, and every member of the structure has its name in it
as often as its slot was filled. -/
theorem members_of_readMembers {fuel : Nat} {first : Bool} {slots slots' : Slots members}
    {t t' : Bytes} (read : readMembers members fuel first slots t = .ok (slots', t'))
    (agree : Slots.Agree members slots' values) :
    Slots.Agree members slots values ∧ ∃ found : List String,
      Members (Stands members values) first (found.map utf8) t t' ∧
      ∀ n ∈ names members, (Slots.missing members slots).count n =
        (Slots.missing members slots').count n + (found.map utf8).count n := by
  induction fuel generalizing first slots t with
  | zero => cases read
  | succ fuel ih =>
    rw [readMembers] at read
    split at read
    · cases read
    · cases read
    · rename_i b rest next
      split_ifs at read with closer
      · cases read
        rcases nextName_eq_ok.1 next with ⟨_, space⟩ | ⟨quote, _⟩
        · exact ⟨agree, [], .close space, fun n _ => rfl⟩
        · rw [quote] at closer
          cases closer
      · rcases nextName_eq_ok.1 next with ⟨wrong, _⟩ | ⟨_, opens⟩
        · exact absurd wrong closer
        · split at read
          · cases read
          · rename_i name t1 quoted
            split at read
            · cases read
            · rename_i slots1 t2 member
              obtain ⟨agree1, found, rest, counts⟩ := ih read
              obtain ⟨agree0, t3, colon, stands⟩ := stands_of_readMember member agree1
              refine ⟨agree0, name :: found, ?_, ?_⟩
              · exact .member opens (readString_eq_ok.1 quoted) colon stands rest
              · intro n known
                rw [count_missing_of_readMember member fun _ => known, counts n known,
                  List.map_cons, List.count_cons]
                omega

/-- A reader that adds nothing, takes no notice of white space before a value, and takes neither the
end of the bytes nor the end of a list for a value. -/
structure Tame {α : Type} (read : Reader α) : Prop where
  shorter : ∀ {t value t'}, read t = .ok (value, t') → t'.length ≤ t.length
  blind : ∀ {s t}, skipSpace s = skipSpace t → read s = read t
  starts : ∀ {t value t'}, read t = .ok (value, t') → ∃ b rest, skipSpace t = b :: rest ∧ b ≠ 93

/-- A tame reader may start at the first byte of the value. -/
theorem Tame.reach {α : Type} {read : Reader α} (tame : Tame read) {t t' : Bytes} {value : α}
    (ok : read t = .ok (value, t')) :
    ∃ b rest, skipSpace t = b :: rest ∧ b ≠ 93 ∧ read (b :: rest) = .ok (value, t') := by
  obtain ⟨b, rest, here, other⟩ := tame.starts ok
  rw [tame.blind (space_of_skipSpace here).skipSpace_eq] at ok
  exact ⟨b, rest, here, other, ok⟩

/-- A reader of strings is tame, however it understands them. -/
theorem tame_readQuoted {α : Type} (expected : String) (parse : String → Except Reason α) :
    Tame (readQuoted expected parse) where
  shorter := by
    intro t value t' read
    obtain ⟨text, ⟨t1, space, quoted⟩, _⟩ := readQuoted_eq_ok.1 read
    exact Nat.le_trans (Nat.le_of_lt (Nat.lt_succ_of_lt quoted.length_lt)) space.length_le
  blind := by
    intro s t same
    unfold readQuoted
    rw [same]
  starts := by
    intro t value t' read
    obtain ⟨text, ⟨t1, space, _⟩, _⟩ := readQuoted_eq_ok.1 read
    exact ⟨34, t1, space.skipSpace_eq_cons (by decide), by decide⟩

theorem length_of_stands (tame : ∀ m ∈ members, Tame m.read) {name t t' : Bytes}
    (stands : Stands members values name t t') : t'.length ≤ t.length := by
  induction members with
  | nil => exact Nat.le_of_lt (length_skipValue_lt stands)
  | cons m ms ih =>
    obtain ⟨value, values⟩ := values
    rw [Stands] at stands
    split_ifs at stands
    · exact (tame m List.mem_cons_self).shorter stands
    · exact ih (fun other member => tame other (List.mem_cons_of_mem m member)) stands

/-- **An object is read**, in which the names are texts and each free slot has its name once. -/
theorem exists_readMembers (tame : ∀ m ∈ members, Tame m.read)
    (distinct : (names members).Nodup) {first : Bool} {found : List Bytes} {t t' : Bytes}
    (object : Members (Stands members values) first found t t') (texts : ∀ n ∈ found, IsText n)
    {slots : Slots members} (agree : Slots.Agree members slots values)
    (counts : ∀ n ∈ names members, (Slots.missing members slots).count n = found.count n)
    {fuel : Nat} (enough : t.length < fuel) :
    ∃ slots', readMembers members fuel first slots t = .ok (slots', t') ∧
      Slots.missing members slots' = [] ∧ Slots.Agree members slots' values := by
  induction object generalizing slots fuel with
  | @close first t t' space =>
    obtain ⟨fuel, rfl⟩ : ∃ more, fuel = more + 1 := ⟨fuel - 1, by omega⟩
    have next : nextName first t = .ok (125 :: t') := nextName_eq_ok.2 (.inl ⟨rfl, space⟩)
    refine ⟨slots, ?_, Slots.missing_eq_nil counts, agree⟩
    rw [readMembers, next]
    rfl
  | @member first name found t t1 t2 t3 t4 t' opens quoted colon stands _ ih =>
    obtain ⟨fuel, rfl⟩ : ∃ more, fuel = more + 1 := ⟨fuel - 1, by omega⟩
    obtain ⟨text, rfl⟩ := texts name List.mem_cons_self
    have next : nextName first t = .ok (34 :: t1) := nextName_eq_ok.2 (.inr ⟨rfl, opens⟩)
    have free : utf8 text ∈ names members → utf8 text ∈ Slots.missing members slots := by
      intro known
      apply List.count_pos_iff.1
      rw [counts _ known, List.count_cons_self]
      exact Nat.succ_pos _
    obtain ⟨slots1, read, agree1⟩ := exists_readMember distinct agree free colon stands
    -- what is left is shorter, since the name has been taken off
    have shorter : t4.length < fuel := by
      have := length_of_stands tame stands
      have := colon.length_le
      have := quoted.length_lt
      have := opens.length_lt
      rw [List.length_cons] at *
      omega
    have counts1 : ∀ n ∈ names members,
        (Slots.missing members slots1).count n = found.count n := by
      intro n known
      have before := counts n known
      rw [count_missing_of_readMember read fun _ => known, List.count_cons] at before
      exact Nat.add_right_cancel before
    obtain ⟨slots', rest, none, agree'⟩ :=
      ih (fun n member => texts n (List.mem_cons_of_mem _ member)) agree1 counts1 shorter
    refine ⟨slots', ?_, none, agree'⟩
    rw [readMembers, next]
    simp only [readString_eq_ok.2 quoted, read]
    exact rest

end Objects

/-! ## Lists -/

/-- What the elements of a structure are as a list. -/
def elements : (members : List Member) → Values members → List (Bytes → Bytes → Prop)
  | [], _ => []
  | m :: ms, (value, values) => (fun t t' => m.read t = .ok (value, t')) :: elements ms values

section Lists

variable {members : List Member} {values : Values members}

theorem closeList_eq_ok {t t' : Bytes} : closeList t = .ok t' ↔ Space t (93 :: t') := by
  constructor
  · intro close
    unfold closeList at close
    split at close
    · cases close
    · rename_i eq
      split_ifs at close with closer
      · cases close
        rw [closer] at eq
        exact space_of_skipSpace eq
      · split at close <;> cases close
  · intro space
    rw [closeList, space.skipSpace_eq_cons (by decide)]
    rfl

/-- The way to an element is white space, behind the first element with a comma in it. -/
theorem nextElement_eq_ok {first : Bool} {b : UInt8} {t t' : Bytes} (other : b ≠ 93) :
    nextElement first t = .ok (b :: t') ↔
      (first = true ∧ skipSpace t = b :: t') ∨
        (first = false ∧ ∃ t1, Space t (44 :: t1) ∧ skipSpace t1 = b :: t') := by
  constructor
  · intro next
    unfold nextElement at next
    split at next
    · cases next
    · rename_i c rest eq
      split_ifs at next with here comma
      · cases next
        cases first with
        | true => exact .inl ⟨rfl, eq⟩
        | false =>
          rw [Bool.or_false, decide_eq_true_eq] at here
          exact absurd here other
      · rw [comma] at eq
        split at next
        · cases next
        · rename_i behind
          split_ifs at next
          cases next
          cases first with
          | true => exact absurd (Bool.or_true _) here
          | false => exact .inr ⟨rfl, rest, space_of_skipSpace eq, behind⟩
  · rintro (⟨rfl, here⟩ | ⟨rfl, t1, comma, behind⟩)
    · rw [nextElement, here]
      simp only [Bool.or_true, if_true]
    · rw [nextElement, comma.skipSpace_eq_cons (by decide)]
      simp only [behind, if_neg other]
      rfl

/-- **What a list was read from is one.** -/
theorem listed_of_readInOrder (tame : ∀ m ∈ members, Tame m.read) {title : String} {done : Nat}
    {t t1 t' : Bytes} (read : readInOrder title done members t = .ok (values, t1))
    (close : closeList t1 = .ok t') : Listed (done = 0) (elements members values) t t' := by
  induction members generalizing done t with
  | nil =>
    cases read
    exact .close (closeList_eq_ok.1 close)
  | cons m ms ih =>
    obtain ⟨value, values⟩ := values
    have tame' := fun other member => tame other (List.mem_cons_of_mem m member)
    rw [readInOrder] at read
    split at read
    · cases read
    · cases read
    · rename_i b rest next
      split_ifs at read with closer
      split at read
      · cases read
      · rename_i element
        split at read
        · cases read
        · rename_i others
          cases read
          have behind := ih tame' others
          rcases (nextElement_eq_ok closer).1 next with ⟨first, here⟩ | ⟨later, t2, comma, here⟩
          · rw [first]
            refine .first ?_ behind
            rw [(tame m List.mem_cons_self).blind (space_of_skipSpace here).skipSpace_eq]
            exact element
          · rw [later]
            refine .next comma ?_ behind
            rw [(tame m List.mem_cons_self).blind (space_of_skipSpace here).skipSpace_eq]
            exact element

/-- **A list is read** in which the values stand in order. -/
theorem exists_readInOrder (tame : ∀ m ∈ members, Tame m.read) (title : String) {done : Nat}
    {first : Bool} (start : decide (done = 0) = first) {t t' : Bytes}
    (listed : Listed first (elements members values) t t') :
    ∃ t1, readInOrder title done members t = .ok (values, t1) ∧ closeList t1 = .ok t' := by
  induction members generalizing done first t with
  | nil =>
    cases listed with
    | close space => exact ⟨t, rfl, closeList_eq_ok.2 space⟩
  | cons m ms ih =>
    obtain ⟨value, values⟩ := values
    have tame' := fun other member => tame other (List.mem_cons_of_mem m member)
    have later : decide (done + 1 = 0) = false := rfl
    cases listed with
    | first element behind =>
      obtain ⟨t1, others, close⟩ := ih tame' later behind
      obtain ⟨b, rest, here, other, read⟩ := (tame m List.mem_cons_self).reach element
      refine ⟨t1, ?_, close⟩
      rw [readInOrder, (nextElement_eq_ok other).2 (.inl ⟨start, here⟩)]
      simp only [if_neg other, read, others]
    | next comma element behind =>
      obtain ⟨t1, others, close⟩ := ih tame' later behind
      obtain ⟨b, rest, here, other, read⟩ := (tame m List.mem_cons_self).reach element
      refine ⟨t1, ?_, close⟩
      rw [readInOrder, (nextElement_eq_ok other).2 (.inr ⟨start, _, comma, here⟩)]
      simp only [if_neg other, read, others]

end Lists

/-! ## Structures -/

section Structures

variable {members : List Member} {values : Values members} (tame : ∀ m ∈ members, Tame m.read)
  (distinct : (names members).Nodup)

include tame distinct

/-- **An object is read exactly**: the names in it are texts, and each of the structure stands
once. -/
theorem readObject_eq_ok {t t' : Bytes} :
    readObject members t = .ok (values, t') ↔
      ∃ found, Members (Stands members values) true found t t' ∧ (∀ n ∈ found, IsText n) ∧
        ∀ n ∈ names members, found.count n = 1 := by
  constructor
  · intro read
    unfold readObject at read
    split at read
    · cases read
    · rename_i slots _ object
      split at read
      · cases read
      · rename_i all
        cases read
        obtain ⟨none, agree⟩ := Slots.values_eq_ok.1 all
        obtain ⟨_, found, object, counts⟩ := members_of_readMembers object agree
        refine ⟨found.map utf8, object, ?_, ?_⟩
        · intro n member
          obtain ⟨text, _, rfl⟩ := List.mem_map.1 member
          exact ⟨text, rfl⟩
        · intro n known
          have once := counts n known
          rw [none, Slots.missing_empty, List.count_eq_one_of_mem distinct known, List.count_nil,
            Nat.zero_add] at once
          exact once.symm
  · rintro ⟨found, object, texts, once⟩
    have counts : ∀ n ∈ names members,
        (Slots.missing members (Slots.empty members)).count n = found.count n := by
      intro n known
      rw [Slots.missing_empty, List.count_eq_one_of_mem distinct known, once n known]
    obtain ⟨slots, read, all⟩ := exists_readMembers tame distinct object texts
      (Slots.agree_empty members values) counts (Nat.lt_succ_self t.length)
    simp only [readObject, read, Slots.values_eq_ok.2 all]

/-- **A structure is read exactly**: from an object that has each of its names once, or from the
list of its values. -/
theorem readStruct_eq_ok {title : String} {t t' : Bytes} :
    readStruct title members t = .ok (values, t') ↔
      (∃ t1 found, Space t (123 :: t1) ∧ Members (Stands members values) true found t1 t' ∧
        (∀ n ∈ found, IsText n) ∧ ∀ n ∈ names members, found.count n = 1) ∨
      ∃ t1, Space t (91 :: t1) ∧ Listed true (elements members values) t1 t' := by
  constructor
  · intro read
    unfold readStruct at read
    split at read
    · cases read
    · rename_i b rest eq
      split_ifs at read with brace bracket
      · subst brace
        obtain ⟨found, object⟩ := (readObject_eq_ok tame distinct).1 read
        exact .inl ⟨rest, found, space_of_skipSpace eq, object⟩
      · subst bracket
        split at read
        · cases read
        · rename_i others
          split at read
          · cases read
          · rename_i close
            cases read
            exact .inr ⟨rest, space_of_skipSpace eq, listed_of_readInOrder tame others close⟩
  · rintro (⟨t1, found, space, object⟩ | ⟨t1, space, listed⟩)
    · rw [readStruct, space.skipSpace_eq_cons (by decide)]
      simp only [if_true, (readObject_eq_ok tame distinct).2 ⟨found, object⟩]
    · have start : decide (0 = 0) = true := rfl
      obtain ⟨t2, read, close⟩ := exists_readInOrder tame title start listed
      have list : (91 : UInt8) ≠ 123 := by decide
      rw [readStruct, space.skipSpace_eq_cons (by decide)]
      simp only [if_neg list, if_true, read, close]

end Structures

end PostStore.Json
