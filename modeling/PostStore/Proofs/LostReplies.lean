import Mathlib.Data.List.Induction
import PostStore.Proofs.LruTransparency
/-!
# Replies that are lost

A store may fail a call before it takes effect, and also afterwards: then the change is made and the
caller is told of a failure.  The coordinator takes the copy of a post out of the cache when it
removes the post, whatever comes of that, but for a change only when it was told of a success.  So
a reader can be given a copy that the store does not hold in one way only: a change took effect and
its reply was lost while the cache held the store's copy, and the copy has stayed there since.
-/

namespace PostStore

/-! ## What becomes of a call -/

/-- What becomes of a call of a store: it is answered, it is refused and does nothing, or it takes
effect and its reply is lost. -/
inductive Fate where
  | answered
  | refused (error : StoreError)
  | lost (error : StoreError)
  deriving DecidableEq

/-- A store while what becomes of its calls is decided. -/
def Store.under {σ κ : Type} (store : Store σ κ) (fate : Fate) : Store σ κ where
  name := store.name
  serve call state :=
    match fate with
    | .answered => store.serve call state
    | .refused error => (call.fail error, state)
    | .lost error => (call.fail error, (store.serve call state).2)
  feed := store.feed

/-- A call, and what becomes of the call of the store that it leads to. -/
structure Deed where
  call : Call
  fate : Fate := .answered
  deriving DecidableEq

/-- Whether a deed replaces what a store holds under a user and an identifier, and its reply is
lost. -/
def Deed.LosesReply (deed : Deed) (user id : String) : Prop :=
  (∃ error, deed.fate = .lost error) ∧
    ((∃ data clock, deed.call = .update user id data clock) ∨
      ∃ data clock, deed.call = .create user data ⟨id, clock⟩)

/-- Whether no failure that a call may meet with says of its own accord that a post is missing. -/
def Fate.Honest : Fate → Prop
  | .answered => True
  | .refused error | .lost error => error.isNotFound = false

/-- Whether an answer to a lookup says what there is: a post, or that it is missing. -/
def Conclusive : Except StoreError Post → Prop
  | .ok _ => True
  | .error error => error.isNotFound = true

section Deeds

variable {σ κ : Type}

/-- Does a deed through the coordinator, with the cache in memory. -/
def Store.doDeed (store : Store σ κ) (deed : Deed) (state : σ × Lru) :
    deed.call.Answer κ × (σ × Lru) :=
  ((store.under deed.fate).cachedBy Lru.cache).serve deed.call state

/-- The state after deeds done one after the other. -/
def Store.afterDeeds (store : Store σ κ) : List Deed → σ × Lru → σ × Lru
  | [], state => state
  | deed :: rest, state => store.afterDeeds rest (store.doDeed deed state).2

theorem Store.afterDeeds_append (store : Store σ κ) (before rest : List Deed) (state : σ × Lru) :
    store.afterDeeds (before ++ rest) state =
      store.afterDeeds rest (store.afterDeeds before state) := by
  induction before generalizing state with
  | nil => rfl
  | cons deed before ih => exact ih _

theorem Store.afterDeeds_concat (store : Store σ κ) (before : List Deed) (deed : Deed)
    (state : σ × Lru) :
    store.afterDeeds (before ++ [deed]) state =
      (store.doDeed deed (store.afterDeeds before state)).2 := by
  rw [afterDeeds_append]
  rfl

/-- Whether the cache holds a post for its owner that the store does not hold. -/
def Stale (held : σ → Catalogue) (user id : String) (copy : Post) (state : σ × Lru) : Prop :=
  state.2.peek user id = some copy ∧ Coordinator.owns user id copy = true ∧
    held state.1 user id ≠ some copy

/-- Whether a reply was lost that left a copy behind: the deed found the cache with the store's own
copy, and ever since the cache has had the copy and the store has not. -/
def LeftBehind (store : Store σ κ) (held : σ → Catalogue) (user id : String) (copy : Post)
    (start : σ × Lru) (deeds : List Deed) : Prop :=
  ∃ before deed since, deeds = before ++ deed :: since ∧ deed.LosesReply user id ∧
    (store.afterDeeds before start).2.peek user id = some copy ∧
    held (store.afterDeeds before start).1 user id = some copy ∧
    ∀ past rest, since = past ++ rest →
      Stale held user id copy (store.afterDeeds (before ++ deed :: past) start)

/-! ## One deed -/

variable {store : Store σ κ} {sound : σ → Prop} {held : σ → Catalogue} {s : σ} {lru : Lru}
  {user id : String} {copy : Post}

/-- Whatever becomes of a call, the store stays sound. -/
theorem under_sound (healthy : store.Healthy sound held) (fate : Fate) (call : Call) (s : σ)
    (good : sound s) : sound ((store.under fate).serve call s).2 := by
  cases fate with
  | answered => exact healthy.keeps_sound call s good
  | refused error => exact good
  | lost error => exact healthy.keeps_sound call s good

/-- Whatever becomes of a call that only looks, the store holds what it held. -/
theorem under_held (fate : Fate) {call : Call} {s : σ}
    (kept : held (store.serve call s).2 = held s) :
    held ((store.under fate).serve call s).2 = held s := by
  cases fate with
  | answered => exact kept
  | refused error => rfl
  | lost error => exact kept

/-- A deed leaves the store sound. -/
theorem doDeed_sound (healthy : store.Healthy sound held) (deed : Deed) {state : σ × Lru}
    (good : sound state.1) : sound (store.doDeed deed state).2.1 :=
  run_keeps (store.under deed.fate) Lru.cache (under_sound healthy deed.fate)
    (Coordinator.perform deed.call) good

/-- What is stale stays so as long as the store holds there what it held. -/
theorem Stale.congr {s' : σ} (stale : Stale held user id copy (s', lru))
    (same : held s' user id = held s user id) : Stale held user id copy (s, lru) :=
  ⟨stale.1, stale.2.1, fun current => stale.2.2 (same.trans current)⟩

/-- A lookup in the cache makes nothing stale. -/
theorem Stale.of_get {u i : String}
    (stale : Stale held user id copy (s, (Lru.cache.serve (.get u i) lru).2)) :
    Stale held user id copy (s, lru) :=
  ⟨Lru.forgetful.get_keeps u i lru user id copy stale.1, stale.2⟩

/-- Adding what the store holds makes nothing stale, and what it is filed under is not. -/
theorem Stale.of_add {u i : String} {added : Post} (current : held s u i = some added)
    (own : Coordinator.owns u i added = true)
    (stale : Stale held user id copy (s, (Lru.cache.serve (.add u i added) lru).2)) :
    Stale held user id copy (s, lru) ∧ ¬ (user = u ∧ id = i) := by
  obtain ⟨found, owned, differs⟩ := stale
  have other : copy ≠ added := by
    rintro rfl
    obtain ⟨rfl, rfl⟩ := Coordinator.owns_iff.1 owned
    obtain ⟨rfl, rfl⟩ := Coordinator.owns_iff.1 own
    exact differs current
  have before : lru.peek user id = some copy :=
    (Lru.forgetful.add u i added lru user id copy trivial found).resolve_left other
  refine ⟨⟨before, owned, differs⟩, ?_⟩
  rintro ⟨rfl, rfl⟩
  exact other (Lru.clears lru (.add user id added) copy found owned)

/-- Taking a copy out of the cache makes nothing stale, and what it was filed under is not. -/
theorem Stale.of_remove {u i : String}
    (stale : Stale held user id copy (s, (Lru.cache.serve (.remove u i) lru).2)) :
    Stale held user id copy (s, lru) ∧ ¬ (user = u ∧ id = i) := by
  obtain ⟨found, owned, differs⟩ := stale
  refine ⟨⟨Lru.forgetful.remove u i lru user id copy found, owned, differs⟩, ?_⟩
  rintro ⟨rfl, rfl⟩
  exact Lru.clears lru (.remove user id) copy found owned

/-- A copy that a change has made stale without its reply being lost was stale before. -/
theorem Stale.of_lost {s' : σ} {deed : Deed} (stale : Stale held user id copy (s', lru))
    (lost : deed.LosesReply user id ∨ held s' user id = held s user id) :
    Stale held user id copy (s, lru) ∨
      deed.LosesReply user id ∧ lru.peek user id = some copy ∧ held s user id = some copy := by
  by_cases current : held s user id = some copy
  · exact .inr ⟨lost.resolve_right fun same => stale.2.2 (same.trans current), stale.1, current⟩
  · exact .inl ⟨stale.1, stale.2.1, current⟩

/-- What is stale after a creation was so before, or the reply was lost and the post is the new
one. -/
theorem Stale.of_create (healthy : store.Healthy sound held) (good : sound s) {author data : String}
    {fresh : Fresh} {fate : Fate}
    (stale : Stale held user id copy (store.doDeed ⟨.create author data fresh, fate⟩ (s, lru)).2) :
    Stale held user id copy (s, lru) ∨
      (⟨.create author data fresh, fate⟩ : Deed).LosesReply user id ∧
        lru.peek user id = some copy ∧ held s user id = some copy := by
  rw [Store.doDeed] at stale
  obtain ⟨answer, after⟩ := healthy.create author data fresh s good
  rw [serve_create_cachedBy] at stale
  have elsewhere (other : ¬ (user = author ∧ id = fresh.id)) :
      held (store.serve (.create author data fresh) s).2 user id = held s user id := by
    rw [after]
    exact Catalogue.file_ne other
  cases fate with
  | answered =>
    rcases served : store.serve (.create author data fresh) s with ⟨result, s'⟩
    rw [served] at answer after elsewhere
    obtain rfl : result = .ok (Post.make author data fresh) := answer
    simp only [Store.under, served] at stale
    have current : held s' author fresh.id = some (Post.make author data fresh) :=
      after ▸ Catalogue.file_self _ _
    obtain ⟨stale, other⟩ := stale.of_add current (Coordinator.owns_iff.2 ⟨rfl, rfl⟩)
    exact .inl (stale.congr (elsewhere other))
  | refused error => exact .inl stale
  | lost error =>
    refine stale.of_lost ?_
    by_cases here : user = author ∧ id = fresh.id
    · obtain ⟨rfl, rfl⟩ := here
      exact .inl ⟨⟨error, rfl⟩, .inr ⟨data, fresh.clock, rfl⟩⟩
    · exact .inr (elsewhere here)

/-- What is stale after a lookup was so before. -/
theorem Stale.of_read (healthy : store.Healthy sound held) (good : sound s) {u i : String}
    {fate : Fate} (stale : Stale held user id copy (store.doDeed ⟨.read u i, fate⟩ (s, lru)).2) :
    Stale held user id copy (s, lru) := by
  rw [Store.doDeed] at stale
  by_cases hit : ∃ post, (Lru.cache.serve (.get u i) lru).1 = some post ∧
      Coordinator.owns u i post = true
  · obtain ⟨post, found, own⟩ := hit
    rw [serve_read_cachedBy_hit _ _ _ _ found own] at stale
    exact stale.of_get
  · have miss : ∀ post, (Lru.cache.serve (.get u i) lru).1 = some post →
        ¬ Coordinator.owns u i post = true :=
      fun post found own => hit ⟨post, found, own⟩
    rw [serve_read_cachedBy_miss _ _ _ _ miss, run_readThrough] at stale
    have kept := under_held fate (healthy.read u i s good).2
    rcases served : (store.under fate).serve (.read u i) s with ⟨result, s'⟩
    rw [served] at kept stale
    have still : held s' user id = held s user id := congrFun (congrFun kept user) id
    cases result with
    | error e => exact (stale.congr still).of_get
    | ok post =>
      -- only what was answered is added, and that is what the store holds
      have answered : (store.serve (.read u i) s).1 = .ok post := by
        cases fate with
        | answered => exact congrArg Prod.fst served
        | refused error => cases congrArg Prod.fst served
        | lost error => cases congrArg Prod.fst served
      obtain ⟨current, own⟩ := healthy.read_own good answered
      exact ((stale.congr still).of_add current own).1.of_get

/-- What is stale after a change was so before, or the reply was lost and the post is the one that
was changed. -/
theorem Stale.of_update (healthy : store.Healthy sound held) (good : sound s) {u i data : String}
    {clock : ClockReading} {fate : Fate}
    (stale : Stale held user id copy (store.doDeed ⟨.update u i data clock, fate⟩ (s, lru)).2) :
    Stale held user id copy (s, lru) ∨
      (⟨.update u i data clock, fate⟩ : Deed).LosesReply user id ∧
        lru.peek user id = some copy ∧ held s user id = some copy := by
  rw [Store.doDeed] at stale
  obtain ⟨answer, after⟩ := healthy.update u i data clock s good
  rw [serve_update_cachedBy] at stale
  have elsewhere (other : ¬ (user = u ∧ id = i)) :
      held (store.serve (.update u i data clock) s).2 user id = held s user id :=
    healthy.faithful.update u i data clock s user id good other
  cases fate with
  | answered =>
    rcases served : store.serve (.update u i data clock) s with ⟨result, s'⟩
    rw [served] at answer after elsewhere
    simp only [Store.under, served] at stale
    cases result with
    | error e =>
      have kept : held s' = held s := by rw [after, ← answer]; rfl
      exact .inl (stale.congr (congrFun (congrFun kept user) id))
    | ok post =>
      obtain ⟨stale, other⟩ := stale.of_remove
      exact .inl (stale.congr (elsewhere other))
  | refused error => exact .inl stale
  | lost error =>
    refine stale.of_lost ?_
    by_cases here : user = u ∧ id = i
    · obtain ⟨rfl, rfl⟩ := here
      exact .inl ⟨⟨error, rfl⟩, .inl ⟨data, clock, rfl⟩⟩
    · exact .inr (elsewhere here)

/-- What is stale after a deed was so before, or the reply was lost. -/
theorem stale_before (healthy : store.Healthy sound held) (good : sound s) (deed : Deed)
    (stale : Stale held user id copy (store.doDeed deed (s, lru)).2) :
    Stale held user id copy (s, lru) ∨
      deed.LosesReply user id ∧ lru.peek user id = some copy ∧ held s user id = some copy := by
  obtain ⟨call, fate⟩ := deed
  cases call with
  | create author data fresh => exact stale.of_create healthy good
  | read u i => exact .inl (stale.of_read healthy good)
  | readAll u =>
    rw [Store.doDeed, serve_readAll_cachedBy] at stale
    have kept := under_held fate (healthy.readAll u s good)
    exact .inl (stale.congr (congrFun (congrFun kept user) id))
  | update u i data clock => exact stale.of_update healthy good
  | delete u i =>
    -- the copy is taken out whatever becomes of the removal
    rw [Store.doDeed, serve_delete_cachedBy] at stale
    obtain ⟨stale, other⟩ := stale.of_remove
    have elsewhere : held (store.serve (.delete u i) s).2 user id = held s user id :=
      healthy.faithful.delete u i s user id good other
    cases fate with
    | answered => exact .inl (stale.congr elsewhere)
    | refused error => exact .inl stale
    | lost error => exact .inl (stale.congr elsewhere)

/-! ## Deeds one after the other -/

/-- The store stays sound. -/
theorem afterDeeds_sound (healthy : store.Healthy sound held) (deeds : List Deed) :
    ∀ {start : σ × Lru}, sound start.1 → sound (store.afterDeeds deeds start).1 := by
  induction deeds with
  | nil => exact fun good => good
  | cons deed rest ih => exact fun good => ih (doDeed_sound healthy deed good)

/-- A copy that is stale after deeds, and was not before them, was left behind by a lost reply. -/
theorem leftBehind_of_stale (healthy : store.Healthy sound held) {start : σ × Lru}
    (good : sound start.1) (fresh : ¬ Stale held user id copy start) (deeds : List Deed)
    (stale : Stale held user id copy (store.afterDeeds deeds start)) :
    LeftBehind store held user id copy start deeds := by
  -- from the last deed backwards, as long as the copy was stale before it too
  induction deeds using List.reverseRecOn with
  | nil => exact absurd stale fresh
  | append_singleton before deed ih =>
    have last := stale
    rw [Store.afterDeeds_concat] at last
    rcases stale_before healthy (afterDeeds_sound healthy before good) deed last with
      already | ⟨loses, cached, current⟩
    · obtain ⟨earlier, lost, since, split, loses, cached, current, ever⟩ := ih already
      refine ⟨earlier, lost, since ++ [deed], by simp [split], loses, cached, current, ?_⟩
      intro past rest parts
      rcases List.eq_nil_or_concat rest with rfl | ⟨rest, d, rfl⟩
      · rw [List.append_nil] at parts
        rw [← parts, ← List.cons_append, ← List.append_assoc, ← split]
        exact stale
      · rw [List.concat_eq_append, ← List.append_assoc] at parts
        exact ever past rest (List.append_inj_left' parts rfl)
    · refine ⟨before, deed, [], rfl, loses, cached, current, ?_⟩
      intro past rest parts
      obtain ⟨rfl, rfl⟩ := List.nil_eq_append_iff.1 parts
      exact stale

/-- A copy is stale just when it was left behind by a lost reply. -/
theorem stale_iff (healthy : store.Healthy sound held) (good : sound s) (capacity : Nat)
    (deeds : List Deed) :
    Stale held user id copy (store.afterDeeds deeds (s, { capacity })) ↔
      LeftBehind store held user id copy (s, { capacity }) deeds := by
  constructor
  · refine leftBehind_of_stale healthy good (fun stale => ?_) deeds
    cases stale.1
  · rintro ⟨before, deed, since, rfl, _, _, _, ever⟩
    exact ever since [] (List.append_nil since).symm

/-- A lookup is given a stale copy, whatever becomes of it. -/
theorem read_of_stale {fate : Fate} (stale : Stale held user id copy (s, lru)) :
    (store.doDeed ⟨.read user id, fate⟩ (s, lru)).1 = .ok copy := by
  obtain ⟨cached, own, _⟩ := stale
  have found : (Lru.cache.serve (.get user id) lru).1 = some copy :=
    (Lru.get_answer lru _).trans cached
  rw [Store.doDeed, serve_read_cachedBy_hit _ _ _ _ found own]

/-- A lookup that tells what there is differs from what the store would tell just when it is given a
stale copy. -/
theorem read_differs_iff_stale (healthy : store.Healthy sound held) (good : sound s) {fate : Fate}
    (honest : fate.Honest) (tells : Conclusive (store.doDeed ⟨.read user id, fate⟩ (s, lru)).1) :
    (store.doDeed ⟨.read user id, fate⟩ (s, lru)).1 ≠ (store.serve (.read user id) s).1 ↔
      ∃ copy, Stale held user id copy (s, lru) := by
  have looked : (Lru.cache.serve (.get user id) lru).1 = lru.peek user id := Lru.get_answer lru _
  rw [Store.doDeed] at tells ⊢
  by_cases hit : ∃ post, lru.peek user id = some post ∧ Coordinator.owns user id post = true
  · obtain ⟨post, found, own⟩ := hit
    rw [serve_read_cachedBy_hit _ _ _ _ (looked.trans found) own, (healthy.read user id s good).1]
    constructor
    · intro differs
      refine ⟨post, found, own, fun current => differs ?_⟩
      exact (Catalogue.lookup_eq_ok.2 current).symm
    · rintro ⟨copy, cached, _, differs⟩ same
      obtain rfl : post = copy := Option.some.inj (found.symm.trans cached)
      exact differs (Catalogue.lookup_eq_ok.1 same.symm)
  · have miss : ∀ post, (Lru.cache.serve (.get user id) lru).1 = some post →
        ¬ Coordinator.owns user id post = true :=
      fun post found own => hit ⟨post, looked.symm.trans found, own⟩
    rw [serve_read_cachedBy_miss _ _ _ _ miss, run_readThrough] at tells ⊢
    constructor
    · intro differs
      cases fate with
      | answered =>
        refine absurd ?_ differs
        simp only [Store.under]
        rcases store.serve (.read user id) s with ⟨answer | post, after⟩ <;> rfl
      | refused error => exact absurd (honest.symm.trans tells) nofun
      | lost error => exact absurd (honest.symm.trans tells) nofun
    · rintro ⟨copy, cached, own, _⟩
      exact absurd ⟨copy, cached, own⟩ hit

/-- **A lookup that tells what there is, at any moment and whatever calls were refused or lost their
replies before it, differs from what the store itself would tell just when a lost reply has left a
copy behind.**  It is given that copy then. -/
theorem read_differs_iff_leftBehind (healthy : store.Healthy sound held) (good : sound s)
    (capacity : Nat) (deeds : List Deed) (user id : String) (fate : Fate)
    (honest : fate.Honest) (tells : Conclusive (store.doDeed ⟨.read user id, fate⟩
      (store.afterDeeds deeds (s, { capacity }))).1) :
    ((store.doDeed ⟨.read user id, fate⟩ (store.afterDeeds deeds (s, { capacity }))).1 ≠
        (store.serve (.read user id) (store.afterDeeds deeds (s, { capacity })).1).1 ↔
      ∃ copy, LeftBehind store held user id copy (s, { capacity }) deeds) ∧
    ∀ copy, LeftBehind store held user id copy (s, { capacity }) deeds →
      (store.doDeed ⟨.read user id, fate⟩ (store.afterDeeds deeds (s, { capacity }))).1 =
        .ok copy := by
  constructor
  · rw [← exists_congr fun copy => stale_iff healthy good capacity deeds]
    exact read_differs_iff_stale healthy (afterDeeds_sound healthy deeds good) honest tells
  · exact fun copy left => read_of_stale ((stale_iff healthy good capacity deeds).2 left)

end Deeds

/-- A post is made and changed, and the reply to the change is lost. -/
def uncertain : List Deed :=
  [⟨.create "u" "first" ⟨"p", .epoch⟩, .answered⟩,
    ⟨.update "u" "p" "second" .epoch, .lost (.backend "memory" "timed out")⟩]

theorem read_differs_iff_leftBehind_uncertain :
    Memory.Filed {} ∧ Fate.Honest .answered ∧
    Conclusive (Memory.store.doDeed ⟨.read "u" "p", .answered⟩
      (Memory.store.afterDeeds uncertain ({}, { capacity := 4 }))).1 ∧
    ((Memory.store.doDeed ⟨.read "u" "p", .answered⟩
        (Memory.store.afterDeeds uncertain ({}, { capacity := 4 }))).1 ≠
        (Memory.store.serve (.read "u" "p")
          (Memory.store.afterDeeds uncertain ({}, { capacity := 4 })).1).1 ↔
      ∃ copy, LeftBehind Memory.store Memory.find? "u" "p" copy ({}, { capacity := 4 })
        uncertain) ∧
    ∀ copy, LeftBehind Memory.store Memory.find? "u" "p" copy ({}, { capacity := 4 }) uncertain →
      (Memory.store.doDeed ⟨.read "u" "p", .answered⟩
        (Memory.store.afterDeeds uncertain ({}, { capacity := 4 }))).1 = .ok copy :=
  ⟨Memory.filed_empty, trivial, trivial,
    read_differs_iff_leftBehind Memory.healthy Memory.filed_empty 4 uncertain "u" "p" .answered
      trivial trivial⟩

/-- A change whose reply is lost leaves readers with the post as it was before. -/
theorem lost_reply_noticed :
    ¬ ∀ (capacity : Nat) (deeds : List Deed) (user id : String) (fate : Fate),
      fate.Honest → Conclusive (Memory.store.doDeed ⟨.read user id, fate⟩
        (Memory.store.afterDeeds deeds ({}, { capacity }))).1 →
      (Memory.store.doDeed ⟨.read user id, fate⟩
          (Memory.store.afterDeeds deeds ({}, { capacity }))).1 =
        (Memory.store.serve (.read user id)
          (Memory.store.afterDeeds deeds ({}, { capacity })).1).1 := by
  intro alike
  have same := alike 4 uncertain "u" "p" .answered trivial trivial
  exact absurd (congrArg (fun answer => answer.toOption.map Post.data) same) (by decide)

end PostStore
