import PostStore.Proofs.Transparency
import PostStore.Store.Memory
/-!
# Healthy stores

A healthy store answers every call on a single post as its catalogue says, and the call changes the
catalogue accordingly.  The store in memory is healthy as long as each post is filed under its own
user and identifier, which every call preserves.
-/

namespace PostStore

/-! ## Catalogues as the reference -/

namespace Catalogue

/-- The catalogue with a post filed under its own user and identifier. -/
def file (held : Catalogue) (post : Post) : Catalogue := fun user id =>
  if user = post.user ∧ id = post.id then some post else held user id

/-- The catalogue without what it holds under a user and an identifier. -/
def drop (held : Catalogue) (user id : String) : Catalogue := fun u i =>
  if u = user ∧ i = id then none else held u i

/-- What a change of a post gives. -/
def change (held : Catalogue) (user id data : String) (clock : ClockReading) :
    Except StoreError Post :=
  match held user id with
  | none => .error (.notFound user id)
  | some post =>
    match post.withData? data clock with
    | none => .error .noLaterInstant
    | some changed => .ok changed

/-- The catalogue after an attempt to change a post. -/
def afterChange (held : Catalogue) : Except StoreError Post → Catalogue
  | .ok changed => held.file changed
  | .error _ => held

/-- All posts that are held are regular. -/
def Regular (held : Catalogue) : Prop :=
  ∀ user id post, held user id = some post → post.Regular

theorem regular_empty : Regular fun _ _ => none := fun _ _ _ found => nomatch found

theorem Regular.file {held : Catalogue} (regular : held.Regular) {post : Post}
    (this : post.Regular) : (held.file post).Regular := by
  intro user id other found
  rw [Catalogue.file] at found
  split at found
  · obtain rfl := Option.some.inj found
    exact this
  · exact regular user id other found

theorem Regular.drop {held : Catalogue} (regular : held.Regular) (user id : String) :
    (held.drop user id).Regular := by
  intro u i post found
  rw [Catalogue.drop] at found
  split at found
  · cases found
  · exact regular u i post found

theorem file_self (held : Catalogue) (post : Post) : held.file post post.user post.id = some post :=
  if_pos ⟨rfl, rfl⟩

theorem file_ne {held : Catalogue} {post : Post} {user id : String}
    (other : ¬ (user = post.user ∧ id = post.id)) : held.file post user id = held user id :=
  if_neg other

theorem drop_self (held : Catalogue) (user id : String) : held.drop user id user id = none :=
  if_pos ⟨rfl, rfl⟩

theorem drop_ne {held : Catalogue} {user id u i : String} (other : ¬ (u = user ∧ i = id)) :
    held.drop user id u i = held u i :=
  if_neg other

/-- A change succeeds only for a post that is held, and keeps its identity. -/
theorem change_eq_ok {held : Catalogue} {user id data : String} {clock : ClockReading}
    {changed : Post} (h : held.change user id data clock = .ok changed) :
    ∃ post, held user id = some post ∧ post.withData? data clock = some changed := by
  unfold change at h
  split at h
  · cases h
  · rename_i post found
    split at h
    · cases h
    · rename_i later eq
      cases h
      exact ⟨post, found, eq⟩

/-- A change of a regular post leaves a regular post. -/
theorem Regular.change {held : Catalogue} (regular : held.Regular) {user id data : String}
    {clock : ClockReading} {changed : Post} (h : held.change user id data clock = .ok changed) :
    changed.Regular := by
  obtain ⟨post, found, later⟩ := change_eq_ok h
  exact (regular user id post found).withData? clock.regular later

theorem Regular.afterChange {held : Catalogue} (regular : held.Regular) (user id data : String)
    (clock : ClockReading) : (held.afterChange (held.change user id data clock)).Regular := by
  cases given : held.change user id data clock with
  | error e => exact regular
  | ok changed => exact regular.file (regular.change given)

end Catalogue

section Contract

variable {σ κ : Type} {store : Store σ κ} {sound : σ → Prop} {held : σ → Catalogue}

/-- In sound states the store answers as its catalogue says and changes it accordingly. -/
structure Store.Healthy (store : Store σ κ) (sound : σ → Prop) (held : σ → Catalogue) : Prop where
  keeps_sound : ∀ call s, sound s → sound (store.serve call s).2
  own : ∀ s user id post, sound s → held s user id = some post →
    Coordinator.owns user id post = true
  create : ∀ user data fresh s, sound s →
    (store.serve (.create user data fresh) s).1 = .ok (Post.make user data fresh) ∧
      held (store.serve (.create user data fresh) s).2 = (held s).file (Post.make user data fresh)
  read : ∀ user id s, sound s →
    (store.serve (.read user id) s).1 = (held s).lookup user id ∧
      held (store.serve (.read user id) s).2 = held s
  readAll : ∀ user s, sound s → held (store.serve (.readAll user) s).2 = held s
  update : ∀ user id data clock s, sound s →
    (store.serve (.update user id data clock) s).1 = (held s).change user id data clock ∧
      held (store.serve (.update user id data clock) s).2 =
        (held s).afterChange ((held s).change user id data clock)
  delete : ∀ user id s, sound s →
    (store.serve (.delete user id) s).1 = .ok () ∧
      held (store.serve (.delete user id) s).2 = (held s).drop user id

namespace Store.Healthy

/-- A post that was changed is still filed under the user and identifier it was found under. -/
theorem changed_own (healthy : store.Healthy sound held) {s : σ} (good : sound s)
    {user id data : String} {clock : ClockReading} {changed : Post}
    (h : (held s).change user id data clock = .ok changed) :
    changed.user = user ∧ changed.id = id := by
  obtain ⟨post, found, eq⟩ := Catalogue.change_eq_ok h
  obtain ⟨hu, hi⟩ := Coordinator.owns_iff.1 (healthy.own s user id post good found)
  obtain ⟨hu', hi', _, _⟩ := Post.withData?_identity eq
  exact ⟨hu'.trans hu, hi'.trans hi⟩

/-- A post that was looked up is filed under the user and identifier asked for. -/
theorem read_own (healthy : store.Healthy sound held) {s : σ} (good : sound s) {user id : String}
    {post : Post} (answer : (store.serve (.read user id) s).1 = .ok post) :
    held s user id = some post ∧ Coordinator.owns user id post = true := by
  have found := Catalogue.lookup_eq_ok.1 ((healthy.read user id s good).1.symm.trans answer)
  exact ⟨found, healthy.own s user id post good found⟩

/-- As long as regular posts are held, they are all that is held. -/
theorem regular (healthy : store.Healthy sound held) :
    store.Healthy (fun s => sound s ∧ (held s).Regular) held where
  keeps_sound call s := by
    rintro ⟨good, regular⟩
    refine ⟨healthy.keeps_sound call s good, ?_⟩
    cases call with
    | create user data fresh =>
      rw [(healthy.create user data fresh s good).2]
      exact regular.file (Post.regular_make user data fresh)
    | read user id => exact (healthy.read user id s good).2 ▸ regular
    | readAll user => exact healthy.readAll user s good ▸ regular
    | update user id data clock =>
      rw [(healthy.update user id data clock s good).2]
      exact regular.afterChange user id data clock
    | delete user id =>
      rw [(healthy.delete user id s good).2]
      exact regular.drop user id
  own s user id post good := healthy.own s user id post good.1
  create user data fresh s good := healthy.create user data fresh s good.1
  read user id s good := healthy.read user id s good.1
  readAll user s good := healthy.readAll user s good.1
  update user id data clock s good := healthy.update user id data clock s good.1
  delete user id s good := healthy.delete user id s good.1

theorem faithful (healthy : store.Healthy sound held) : store.Faithful sound held where
  keeps_sound := healthy.keeps_sound
  own := healthy.own
  read user id s good := (healthy.read user id s good).1
  held_read user id s good := (healthy.read user id s good).2
  held_readAll := healthy.readAll
  create_ok user data fresh s post good h := by
    obtain ⟨answer, after⟩ := healthy.create user data fresh s good
    rw [answer] at h
    cases h
    rw [after]
    exact ⟨rfl, Catalogue.file_self _ _, fun u i other => Catalogue.file_ne other⟩
  create_error user data fresh s e good h := by
    rw [(healthy.create user data fresh s good).1] at h
    cases h
  update user id data clock s u i good other := by
    rw [(healthy.update user id data clock s good).2]
    cases h : (held s).change user id data clock with
    | error e => rfl
    | ok changed =>
      obtain ⟨hu, hi⟩ := healthy.changed_own good h
      exact Catalogue.file_ne (by rwa [hu, hi])
  update_error user id data clock s e good h := by
    obtain ⟨answer, after⟩ := healthy.update user id data clock s good
    rw [after, ← answer, h]
    rfl
  delete user id s u i good other := by
    rw [(healthy.delete user id s good).2]
    exact Catalogue.drop_ne other

/-- Sound states with one catalogue. -/
def Same (sound : σ → Prop) (held : σ → Catalogue) (s s' : σ) : Prop :=
  sound s ∧ sound s' ∧ held s = held s'

/-- Calls on single posts depend on the catalogue only. -/
theorem bisimilar (healthy : store.Healthy sound held) :
    store.Bisimilar (fun call => ∀ user, call ≠ .readAll user) (Same sound held) where
  answer call s s' single := by
    rintro ⟨good, good', alike⟩
    cases call with
    | create user data fresh =>
      rw [(healthy.create user data fresh s good).1, (healthy.create user data fresh s' good').1]
    | read user id =>
      rw [(healthy.read user id s good).1, (healthy.read user id s' good').1, alike]
    | readAll user => exact absurd rfl (single user)
    | update user id data clock =>
      rw [(healthy.update user id data clock s good).1,
        (healthy.update user id data clock s' good').1, alike]
    | delete user id => rw [(healthy.delete user id s good).1, (healthy.delete user id s' good').1]
  next call s s' single := by
    rintro ⟨good, good', alike⟩
    refine ⟨healthy.keeps_sound call s good, healthy.keeps_sound call s' good', ?_⟩
    cases call with
    | create user data fresh =>
      rw [(healthy.create user data fresh s good).2, (healthy.create user data fresh s' good').2,
        alike]
    | read user id =>
      rw [(healthy.read user id s good).2, (healthy.read user id s' good').2, alike]
    | readAll user => exact absurd rfl (single user)
    | update user id data clock =>
      rw [(healthy.update user id data clock s good).2,
        (healthy.update user id data clock s' good').2, alike]
    | delete user id =>
      rw [(healthy.delete user id s good).2, (healthy.delete user id s' good').2, alike]
  skip user id s s' := by
    rintro ⟨good, good', alike⟩
    exact ⟨good, healthy.keeps_sound _ s' good',
      alike.trans (healthy.read user id s' good').2.symm⟩

end Store.Healthy

end Contract

/-! ## The store in memory -/

namespace Memory

/-- Each post is filed under its own user and identifier. -/
def Filed (memory : Memory) : Prop :=
  ∀ user id post, memory.find? user id = some post → Coordinator.owns user id post = true

theorem filed_empty : ({} : Memory).Filed := by
  intro user id post found
  cases found

theorem find?_insert_own (memory : Memory) (post : Post) :
    (memory.insert post.user post.id post).find? = Catalogue.file memory.find? post := by
  funext user id
  rw [find?_insert, Catalogue.file]
  simp only [eq_comm]

theorem find?_remove_eq (memory : Memory) (user id : String) :
    (memory.remove user id).find? = Catalogue.drop memory.find? user id := by
  funext u i
  rw [find?_remove, Catalogue.drop]
  simp only [eq_comm]

theorem Filed.insert {memory : Memory} (filed : memory.Filed) (post : Post) :
    (memory.insert post.user post.id post).Filed := by
  intro user id found h
  rw [find?_insert_own, Catalogue.file] at h
  split at h
  · rename_i here
    cases h
    exact Coordinator.owns_iff.2 ⟨here.1.symm, here.2.symm⟩
  · exact filed user id found h

theorem Filed.remove {memory : Memory} (filed : memory.Filed) (user id : String) :
    (memory.remove user id).Filed := by
  intro u i post h
  rw [find?_remove_eq, Catalogue.drop] at h
  split at h
  · cases h
  · exact filed u i post h

/-- What a change does to the store in memory. -/
theorem serve_update {memory : Memory} (filed : memory.Filed) (user id data : String)
    (clock : ClockReading) :
    (serve (.update user id data clock) memory).1 =
        Catalogue.change memory.find? user id data clock ∧
      (serve (.update user id data clock) memory).2.Filed ∧
      (serve (.update user id data clock) memory).2.find? =
        Catalogue.afterChange memory.find? (Catalogue.change memory.find? user id data clock) := by
  cases found : memory.find? user id with
  | none =>
    simp only [serve, Catalogue.change, found, true_and]
    exact ⟨filed, rfl⟩
  | some post =>
    cases later : post.withData? data clock with
    | none =>
      simp only [serve, Catalogue.change, found, later, true_and]
      exact ⟨filed, rfl⟩
    | some changed =>
      simp only [serve, Catalogue.change, found, later, true_and]
      obtain ⟨hu, hi⟩ := Coordinator.owns_iff.1 (filed user id post found)
      obtain ⟨hu', hi', _, _⟩ := Post.withData?_identity later
      -- the changed post takes the place of the one that was found
      have identity : changed.user = user ∧ changed.id = id := ⟨hu'.trans hu, hi'.trans hi⟩
      obtain ⟨rfl, rfl⟩ := identity
      exact ⟨filed.insert changed, find?_insert_own memory changed⟩

/-- Every call leaves each post filed under its own user and identifier. -/
theorem filed_serve (call : Call) {memory : Memory} (filed : memory.Filed) :
    (serve call memory).2.Filed := by
  cases call with
  | create user data fresh => exact filed.insert (Post.make user data fresh)
  | read user id => cases found : memory.find? user id <;> simpa only [serve, found] using filed
  | readAll user => exact filed
  | update user id data clock => exact (serve_update filed user id data clock).2.1
  | delete user id => exact filed.remove user id

/-- **The store in memory is healthy.** -/
theorem healthy : Memory.store.Healthy Filed find? where
  keeps_sound call _ filed := filed_serve call filed
  own _ user id post filed found := filed user id post found
  create user data fresh memory _ := ⟨rfl, find?_insert_own memory (Post.make user data fresh)⟩
  read user id memory _ := by
    show (serve (.read user id) memory).1 = _ ∧ find? (serve (.read user id) memory).2 = _
    cases found : memory.find? user id <;> simp [serve, Catalogue.lookup, found]
  readAll _ _ _ := rfl
  update user id data clock memory filed :=
    ⟨(serve_update filed user id data clock).1, (serve_update filed user id data clock).2.2⟩
  delete user id memory _ := ⟨rfl, find?_remove_eq memory user id⟩

/-- Two stores in memory with the same state stay so, also when one of them skips a lookup. -/
theorem bisimilar (scope : Call → Prop) : Memory.store.Bisimilar scope Eq where
  answer _ _ _ _ same := by rw [same]
  next _ _ _ _ same := by rw [same]
  skip user id s s' same := by
    show s = (serve (.read user id) s').2
    cases found : s'.find? user id <;> simp [serve, found, same]

end Memory

end PostStore
