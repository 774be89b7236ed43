import Mathlib.Data.String.Basic
import PostStore.Proofs.Conformance.Steps
import PostStore.Proofs.ServiceRuns
import PostStore.Proofs.Timestamps
/-!
# Every check ends well

What each check takes from its supply and which calls it makes is its script.  From any catalogue
that holds nothing of the users that the check makes, the check ends well and leaves what is held of
all other users as it was.  Checks one after the other do so too, because each makes users that none
before it has made.
-/

namespace PostStore

/-! ## What is held of a user -/

namespace Catalogue

/-- Whether a catalogue holds of a user just some posts. -/
def HasJust (held : Catalogue) (user : String) (posts : List Post) : Prop :=
  ∀ id post, held user id = some post ↔ post ∈ posts ∧ post.id = id

variable {held held' : Catalogue} {user id : String} {posts : List Post} {post : Post}

theorem hasJust_nil (vacant : ∀ id, held user id = none) : held.HasJust user [] := by
  intro id post
  rw [vacant]
  simp

theorem HasJust.eq_none (just : held.HasJust user posts) (new : id ∉ posts.map Post.id) :
    held user id = none := by
  rw [Option.eq_none_iff_forall_ne_some]
  intro post found
  obtain ⟨member, rfl⟩ := (just id post).1 found
  exact new (List.mem_map_of_mem member)

/-- A post under a new identifier comes to those that are there. -/
theorem HasJust.file (just : held.HasJust user posts) (post : Post) (own : post.user = user)
    (new : post.id ∉ posts.map Post.id) : (held.file post).HasJust user (post :: posts) := by
  subst own
  intro id other
  by_cases here : id = post.id
  · subst here
    rw [file_self, Option.some.injEq, List.mem_cons]
    constructor
    · rintro rfl
      exact ⟨.inl rfl, rfl⟩
    · rintro ⟨rfl | old, same⟩
      · rfl
      · exact absurd (same ▸ List.mem_map_of_mem old) new
  · rw [file_ne fun same => here same.2, just, List.mem_cons]
    constructor
    · exact fun ⟨old, same⟩ => ⟨.inr old, same⟩
    · rintro ⟨rfl | old, same⟩
      · exact absurd same.symm here
      · exact ⟨old, same⟩

theorem HasJust.drop (just : held.HasJust user posts) (new : id ∉ posts.map Post.id) :
    (held.drop user id).HasJust user posts := by
  intro id' post
  by_cases here : id' = id
  · subst here
    rw [drop_self]
    refine iff_of_false (fun found => nomatch found) ?_
    rintro ⟨member, rfl⟩
    exact new (List.mem_map_of_mem member)
  · rw [drop_ne fun same => here same.2, just]

/-- What is held of a user is listed, in some order. -/
theorem HasJust.perm (just : held.HasJust user posts) (once : posts.Nodup) {listed : List Post}
    (listedOnce : listed.Nodup) (all : ∀ post, post ∈ listed ↔ held user post.id = some post) :
    listed.Perm posts := by
  refine (List.perm_ext_iff_of_nodup listedOnce once).2 fun post => ?_
  rw [all, just]
  exact and_iff_left rfl

/-- A change of a post that is there. -/
theorem change_found {changed : Post} {data : String} {clock : ClockReading}
    (found : held user id = some post) (later : post.withData? data clock = some changed) :
    held.change user id data clock = .ok changed := by
  simp only [change, found, later]

/-- A post that has been filed is found. -/
theorem file_found (held : Catalogue) (own : post.user = user) (same : post.id = id) :
    held.file post user id = some post :=
  if_pos ⟨own.symm, same.symm⟩

end Catalogue

namespace Conformance

/-! ## Changes in time -/

/-- A post can be changed as long as there is a second left, and the clock leaves the seconds for
later changes. -/
theorem exists_change {supply : Supply} {count index left : Nat} (good : supply.Good count)
    (less : index < count) (few : left ≤ 2) (post : Post)
    (early : post.updatedAt.seconds + (left + 1 : Nat) ≤ Instant.lastSecond) (data : String) :
    ∃ changed, post.withData? data (supply.item index).clock = some changed ∧
      changed.updatedAt.seconds + left ≤ Instant.lastSecond := by
  have room : post.updatedAt.seconds < Instant.lastSecond := by omega
  obtain ⟨t, next⟩ := Instant.exists_next? room (supply.item index).clock
  refine ⟨{ post with data := data, updatedAt := t }, ?_, ?_⟩
  · rw [Post.withData?, next]
    rfl
  · show t.seconds + left ≤ Instant.lastSecond
    have clock := good.early _ (Supply.item_mem index less)
    rcases Instant.seconds_le_of_next? next with soon | soon <;> omega

/-- A new post leaves a few seconds. -/
theorem early_make {supply : Supply} {count index : Nat} (good : supply.Good count)
    (less : index < count) (user data : String) :
    (Post.make user data (supply.item index)).updatedAt.seconds + (3 : Nat) ≤ Instant.lastSecond :=
  good.early _ (Supply.item_mem index less)

/-! ## The order of identifiers -/

theorem sortById_perm (posts : List Post) : (sortById posts).Perm posts :=
  List.mergeSort_perm posts _

theorem pairwise_sortById (posts : List Post) :
    (sortById posts).Pairwise fun a b => a.id ≤ b.id := by
  have total (a b : Post) : (decide (a.id ≤ b.id) || decide (b.id ≤ a.id)) = true := by
    simpa using le_total a.id b.id
  have trans (a b c : Post) (less : decide (a.id ≤ b.id) = true)
      (more : decide (b.id ≤ c.id) = true) : decide (a.id ≤ c.id) = true :=
    decide_eq_true (le_trans (of_decide_eq_true less) (of_decide_eq_true more))
  exact (List.pairwise_mergeSort trans total posts).imp of_decide_eq_true

/-- The same posts in two orders are the same when they are put in the order of their identifiers,
which differ. -/
theorem sortById_eq_of_perm {posts posts' : List Post} (perm : posts.Perm posts')
    (distinct : (posts'.map Post.id).Nodup) : sortById posts = sortById posts' := by
  refine List.Perm.eq_of_pairwise (fun a b here there less more => ?_) (pairwise_sortById posts)
    (pairwise_sortById posts')
    ((sortById_perm posts).trans (perm.trans (sortById_perm posts').symm))
  exact List.inj_on_of_nodup_map distinct (((sortById_perm posts).trans perm).subset here)
    ((sortById_perm posts').subset there) (le_antisymm less more)

/-! ## Scripts -/

/-- How many items a check takes from its supply, and the calls that it makes. -/
structure Script where
  uses : Nat
  calls : Supply → List Call

namespace Script

/-- Nothing is taken and no call is made. -/
def nothing : Script := ⟨0, fun _ => []⟩

/-- One script after the other. -/
def andThen (first second : Script) : Script where
  uses := first.uses + second.uses
  calls supply := first.calls supply ++ second.calls (supply.skip first.uses)

end Script

namespace Bench

variable {ω κ : Type} (bench : Bench ω κ)

/-- Whether a check ends well wherever nothing is held of the users that it makes, takes and calls
what its script says, and changes nothing that is held of other users. -/
def Passes (check : Check ω Unit) (script : Script) : Prop :=
  ∀ {supply base rest w}, supply.Good script.uses →
    (∀ user, supply.Names script.uses user → ∀ id, base user id = none) →
    bench.Stands supply base base (script.calls supply ++ rest) 0 w →
    Ensures check w fun _ after => ∃ held, bench.Stands supply base held rest script.uses after

variable {bench}

theorem passes_nothing : bench.Passes (pure ()) .nothing :=
  fun _ _ stands => ensures_pure ⟨_, stands⟩

/-- A check after another one passes, since it makes other users. -/
theorem Passes.andThen {first second : Check ω Unit} {script script' : Script}
    (passes : bench.Passes first script) (passes' : bench.Passes second script') :
    bench.Passes (do first; second) (script.andThen script') := by
  intro supply base rest w good vacant stands
  rw [Script.andThen, List.append_assoc] at stands
  have early : ∀ user, supply.Names script.uses user → ∀ id, base user id = none :=
    fun user named => vacant user (Supply.names_add.2 (.inl named))
  refine (passes good.front early stands).bind ?_
  rintro - w ⟨held, shown, within, supplied, elsewhere⟩
  -- to the second check what the first has left is what was there before
  have late : ∀ user, (supply.skip script.uses).Names script'.uses user → ∀ id,
      held user id = none := by
    intro user named id
    rw [elsewhere user (good.not_names named)]
    exact vacant user (Supply.names_add.2 (.inr named)) id
  have again : bench.Stands (supply.skip script.uses) held held
      (script'.calls (supply.skip script.uses) ++ rest) 0 w :=
    ⟨shown, within, supplied, fun _ _ => rfl⟩
  obtain ⟨_, after, run, held', shown', within', supplied', elsewhere'⟩ :=
    passes' good.back late again
  refine ⟨_, after, run, held', shown', within', ?_, fun user other => ?_⟩
  · rw [supplied', Supply.skip_skip]
    rfl
  · rw [elsewhere' user fun named => other (Supply.names_add.2 (.inr named))]
    exact elsewhere user fun named => other (Supply.names_add.2 (.inl named))

end Bench

/-! ## Checks on single posts -/

section Checks

variable {ω κ : Type} {bench : Bench ω κ}

/-- The script of a round trip. -/
def roundTripScript : Script where
  uses := 2
  calls supply :=
    let user := supply.user "round-trip" 0
    [.create user "hello" (supply.item 1), .read user (supply.item 1).id]

theorem passes_roundTrip : bench.Passes (roundTrip bench.store) roundTripScript := by
  intro supply base rest w good vacant stands
  refine (stands.uniqueUser "round-trip").bind ?_
  rintro _ w ⟨rfl, stands⟩
  have mine := good.names 0 (by decide) "round-trip"
  refine (stands.create mine).bind ?_
  rintro _ w ⟨rfl, stands⟩
  have named : (supply.item 1).id ≠ "" := by
    have hex := good.hex _ (Supply.item_mem 1 (by decide))
    exact fun empty => hex.nonempty (by rw [empty]; rfl)
  refine ensures_expect_bind (decide_eq_true rfl) ?_
  refine ensures_expect_bind (decide_eq_true named) ?_
  refine ensures_expect_bind (decide_eq_true rfl) ?_
  refine (stands.read (mine.mono (by decide)) (Catalogue.file_self _ _)).bind ?_
  rintro _ w ⟨rfl, stands⟩
  exact ensures_unwrap (samePost_self _) ⟨_, stands⟩

/-- The script of what is missing. -/
def notFoundOnMissScript : Script where
  uses := 4
  calls supply :=
    let user := supply.user "not-found" 0
    let id := (supply.item 2).id
    [.read user "never-created", .update user "never-created" "x" (supply.item 1).clock,
      .create user "doomed" (supply.item 2), .delete user id, .read user id,
      .update user id "x" (supply.item 3).clock]

theorem passes_notFoundOnMiss :
    bench.Passes (notFoundOnMiss bench.store) notFoundOnMissScript := by
  intro supply base rest w good vacant stands
  refine (stands.uniqueUser "not-found").bind ?_
  rintro _ w ⟨rfl, stands⟩
  have mine := good.names 0 (by decide) "not-found"
  have nothing := vacant _ (mine.mono (by decide)) "never-created"
  refine (stands.absentOnRead mine nothing).bind ?_
  rintro - w stands
  refine (stands.absentOnUpdate mine nothing).bind ?_
  rintro - w stands
  refine (stands.create (mine.mono (by decide))).bind ?_
  rintro _ w ⟨rfl, stands⟩
  refine (stands.delete (mine.mono (by decide))).bind ?_
  rintro - w stands
  have dropped := Catalogue.drop_self
    (base.file (Post.make (supply.user "not-found" 0) "doomed" (supply.item 2)))
    (supply.user "not-found" 0) (supply.item 2).id
  refine (stands.absentOnRead (mine.mono (by decide)) dropped).bind ?_
  rintro - w stands
  exact (stands.absentOnUpdate (mine.mono (by decide)) dropped).imp
    fun _ _ stands => ⟨_, stands⟩

/-- The script of removals. -/
def idempotentDeleteScript : Script where
  uses := 2
  calls supply :=
    let user := supply.user "delete" 0
    let id := (supply.item 1).id
    [.create user "bye" (supply.item 1), .delete user id, .delete user id,
      .delete user "never-created"]

theorem passes_idempotentDelete :
    bench.Passes (idempotentDelete bench.store) idempotentDeleteScript := by
  intro supply base rest w good vacant stands
  refine (stands.uniqueUser "delete").bind ?_
  rintro _ w ⟨rfl, stands⟩
  have mine := good.names 0 (by decide) "delete"
  refine (stands.create mine).bind ?_
  rintro _ w ⟨rfl, stands⟩
  refine (stands.delete (mine.mono (by decide))).bind ?_
  rintro - w stands
  refine (stands.delete (mine.mono (by decide))).bind ?_
  rintro - w stands
  exact (stands.delete (mine.mono (by decide))).imp fun _ _ stands => ⟨_, stands⟩

/-- The script of the life of a post. -/
def exampleScenarioScript : Script where
  uses := 3
  calls supply :=
    let user := supply.user "u1" 0
    let id := (supply.item 1).id
    [.create user "hello" (supply.item 1), .read user id,
      .update user id "world" (supply.item 2).clock, .read user id, .delete user id, .read user id,
      .delete user id]

theorem passes_exampleScenario :
    bench.Passes (exampleScenario bench.store) exampleScenarioScript := by
  intro supply base rest w good vacant stands
  refine (stands.uniqueUser "u1").bind ?_
  rintro _ w ⟨rfl, stands⟩
  have mine := good.names 0 (by decide) "u1"
  refine (stands.create mine).bind ?_
  rintro _ w ⟨rfl, stands⟩
  have found := base.file_self (Post.make (supply.user "u1" 0) "hello" (supply.item 1))
  refine (stands.read (mine.mono (by decide)) found).bind ?_
  rintro _ w ⟨rfl, stands⟩
  refine ensures_expect_bind (decide_eq_true rfl) ?_
  have less : 2 < exampleScenarioScript.uses := by decide
  have early := early_make good (Nat.lt_of_succ_lt less) (supply.user "u1" 0) "hello"
  obtain ⟨changed, later, -⟩ := exists_change good less (Nat.le_refl 2) _ early "world"
  obtain ⟨own, same, text, -⟩ := Post.withData?_identity later
  refine (stands.update (mine.mono (by decide)) (Catalogue.change_found found later)).bind ?_
  rintro _ w ⟨rfl, stands⟩
  refine (stands.read (mine.mono (by decide)) (Catalogue.file_found _ own same)).bind ?_
  rintro _ w ⟨rfl, stands⟩
  refine ensures_expect_bind (decide_eq_true text) ?_
  refine (stands.delete (mine.mono (by decide))).bind ?_
  rintro - w stands
  refine (stands.absentOnRead (mine.mono (by decide)) (Catalogue.drop_self _ _ _)).bind ?_
  rintro - w stands
  exact (stands.delete (mine.mono (by decide))).imp fun _ _ stands => ⟨_, stands⟩

/-! ## Changes one after the other -/

/-- What a post may become by changes: the same post, with a later time of the last change. -/
structure Revises (created post : Post) : Prop where
  user : post.user = created.user
  id : post.id = created.id
  createdAt : post.createdAt = created.createdAt
  ordered : created.createdAt ≤ post.updatedAt

theorem Revises.withData? {created post changed : Post} (revises : Revises created post)
    {data : String} {clock : Instant} (later : post.withData? data clock = some changed) :
    Revises created changed := by
  obtain ⟨own, same, -, createdAt⟩ := Post.withData?_identity later
  exact ⟨own.trans revises.user, same.trans revises.id, createdAt.trans revises.createdAt,
    Instant.le_of_lt (Instant.lt_of_le_of_lt revises.ordered (Post.lt_of_withData? later))⟩

/-- The calls by which a post is changed to each of some texts, and read each time. -/
def revisions (supply : Supply) (created : Post) : Nat → List String → List Call
  | _, [] => []
  | index, data :: rest =>
    .update created.user created.id data (supply.item index).clock ::
      .read created.user created.id :: revisions supply created (index + 1) rest

/-- Changes one after the other are each as they must be, while there are seconds left. -/
theorem Bench.Stands.updateThrough {supply : Supply} {total : Nat} (good : supply.Good total)
    {base : Catalogue} {created : Post} {calls : List Call} (texts : List String) :
    ∀ {held : Catalogue} {previous : Post} {count : Nat} {w : ω × Supply},
      bench.Stands supply base held (revisions supply created count texts ++ calls) count w →
        supply.Names count created.user → count + texts.length ≤ total → texts.length ≤ 3 →
        held created.user created.id = some previous → Revises created previous →
        previous.updatedAt.seconds + texts.length ≤ Instant.lastSecond →
        Ensures (updateThrough bench.store created.user created previous texts) w fun _ after =>
          ∃ held, bench.Stands supply base held calls (count + texts.length) after := by
  induction texts with
  | nil => exact fun stands _ _ _ _ _ _ => ensures_pure ⟨_, stands⟩
  | cons data rest ih =>
    intro held previous count w stands mine enough few found revises early
    rw [List.length_cons] at enough few early
    obtain ⟨changed, later, early'⟩ :=
      exists_change good (by omega : count < total) (Nat.le_of_succ_le_succ few) previous early data
    have revises' := revises.withData? later
    have text : changed.data = data := (Post.withData?_identity later).2.2.1
    have ordered : changed.createdAt ≤ changed.updatedAt := by
      rw [revises'.createdAt]
      exact revises'.ordered
    have found' := Catalogue.file_found held revises'.user revises'.id
    have mine' := mine.mono (Nat.le_succ count)
    refine (stands.update mine (Catalogue.change_found found later)).bind ?_
    rintro _ w ⟨rfl, stands⟩
    refine ensures_expect_bind (decide_eq_true revises'.user) ?_
    refine ensures_expect_bind (decide_eq_true revises'.id) ?_
    refine ensures_expect_bind (decide_eq_true revises'.createdAt) ?_
    refine ensures_expect_bind (decide_eq_true text) ?_
    refine ensures_expect_bind (decide_eq_true (Post.lt_of_withData? later)) ?_
    refine ensures_expect_bind (decide_eq_true ordered) ?_
    refine (stands.read mine' found').bind ?_
    rintro _ w ⟨rfl, stands⟩
    refine ensures_expect_bind (decide_eq_true rfl) ?_
    rw [List.length_cons, Nat.add_comm rest.length, ← Nat.add_assoc]
    exact ih stands mine' (by omega) (by omega) found' revises' early'

/-- The script of changes. -/
def updateSemanticsScript : Script where
  uses := 5
  calls supply :=
    let created := Post.make (supply.user "update" 0) "v0" (supply.item 1)
    .create created.user "v0" (supply.item 1) :: revisions supply created 2 ["v1", "v2", "v3"]

theorem passes_updateSemantics :
    bench.Passes (updateSemantics bench.store) updateSemanticsScript := by
  intro supply base rest w good vacant stands
  refine (stands.uniqueUser "update").bind ?_
  rintro _ w ⟨rfl, stands⟩
  have mine := good.names 0 (by decide) "update"
  refine (stands.create mine).bind ?_
  rintro _ w ⟨rfl, stands⟩
  have less : 1 < updateSemanticsScript.uses := by decide
  have early := early_make good less (supply.user "update" 0) "v0"
  exact stands.updateThrough good ["v1", "v2", "v3"] (mine.mono (by decide)) (Nat.le_refl 5)
    (Nat.le_refl 3) (Catalogue.file_self _ _) ⟨rfl, rfl, rfl, Instant.le_refl _⟩ early

/-! ## Posts one after the other -/

/-- The posts that are made of some texts. -/
def posted (supply : Supply) (user : String) : Nat → List String → List Post
  | _, [] => []
  | index, data :: rest =>
    Post.make user data (supply.item index) :: posted supply user (index + 1) rest

/-- The calls by which they are made. -/
def creations (supply : Supply) (user : String) : Nat → List String → List Call
  | _, [] => []
  | index, data :: rest =>
    .create user data (supply.item index) :: creations supply user (index + 1) rest

/-- The calls by which they are made, and read each time. -/
def storings (supply : Supply) (user : String) : Nat → List String → List Call
  | _, [] => []
  | index, data :: rest =>
    .create user data (supply.item index) :: .read user (supply.item index).id ::
      storings supply user (index + 1) rest

theorem map_id_posted (supply : Supply) (user : String) (texts : List String) :
    ∀ index, (posted supply user index texts).map Post.id =
      ((List.range' index texts.length).map supply.item).map Fresh.id := by
  induction texts with
  | nil => exact fun _ => rfl
  | cons data rest ih =>
    intro index
    rw [posted, List.map_cons, ih, List.length_cons, List.range'_succ, List.map_cons, List.map_cons]
    rfl

/-- Posts that are made one after the other have different identifiers. -/
theorem nodup_posted {supply : Supply} {total index : Nat} (good : supply.Good total)
    (user : String) {texts : List String} (enough : index + texts.length ≤ total) :
    ((posted supply user index texts).map Post.id).Nodup := by
  rw [map_id_posted, List.map_map]
  refine List.Nodup.map_on ?_ List.nodup_range'
  intro first member second member' same
  rw [List.mem_range'_1] at member member'
  exact good.eq_of_id (by omega) (by omega) same

namespace Bench.Stands

variable {supply : Supply} {base : Catalogue} {user : String} {calls : List Call}

/-- Posts that are made one after the other come to those that are there. -/
theorem createAll (texts : List String) :
    ∀ {held : Catalogue} {earlier : List Post} {count : Nat} {w : ω × Supply},
      bench.Stands supply base held (creations supply user count texts ++ calls) count w →
        supply.Names count user → held.HasJust user earlier →
        (((posted supply user count texts).reverse ++ earlier).map Post.id).Nodup →
        Ensures (createAll bench.store user texts) w fun posts after =>
          posts = posted supply user count texts ∧ ∃ held,
            held.HasJust user (posts.reverse ++ earlier) ∧
              bench.Stands supply base held calls (count + texts.length) after := by
  induction texts with
  | nil => exact fun stands _ just _ => ensures_pure ⟨rfl, _, just, stands⟩
  | cons data rest ih =>
    intro held earlier count w stands mine just distinct
    rw [posted, List.reverse_cons, List.append_assoc, List.singleton_append] at distinct
    have new : (supply.item count).id ∉ earlier.map Post.id := by
      rw [List.map_append, List.map_cons] at distinct
      exact (List.nodup_cons.1 distinct.of_append_right).1
    refine (stands.create mine).bind ?_
    rintro _ w ⟨rfl, stands⟩
    refine (ih stands (mine.mono (Nat.le_succ count)) (just.file _ rfl new) distinct).bind ?_
    rintro _ w ⟨rfl, held', just', stands⟩
    refine ensures_pure ⟨rfl, held', ?_, ?_⟩
    · rwa [List.reverse_cons, List.append_assoc, List.singleton_append]
    · rwa [List.length_cons, Nat.add_comm rest.length, ← Nat.add_assoc]

/-- A user of whom nothing is held has just the posts that are made then. -/
theorem createNew {count : Nat} {held : Catalogue} {w : ω × Supply} (texts : List String)
    (stands : bench.Stands supply base held (creations supply user count texts ++ calls) count w)
    (mine : supply.Names count user) (vacant : ∀ id, held user id = none)
    (distinct : ((posted supply user count texts).map Post.id).Nodup) :
    Ensures (Conformance.createAll bench.store user texts) w fun posts after =>
      posts = posted supply user count texts ∧ ∃ held, held.HasJust user posts ∧
        bench.Stands supply base held calls (count + texts.length) after := by
  have turned : (((posted supply user count texts).reverse ++ []).map Post.id).Nodup := by
    rwa [List.append_nil, List.map_reverse, List.nodup_reverse]
  refine (stands.createAll texts mine (Catalogue.hasJust_nil vacant) turned).imp ?_
  rintro posts after ⟨made, held, just, stands⟩
  refine ⟨made, held, fun id post => ?_, stands⟩
  rw [just, List.append_nil, List.mem_reverse]

/-- Posts that are made are read as they were made. -/
theorem storeEach (texts : List String) :
    ∀ {held : Catalogue} {count : Nat} {w : ω × Supply},
      bench.Stands supply base held (storings supply user count texts ++ calls) count w →
        supply.Names count user →
        Ensures (storeEach bench.store user texts) w fun _ after =>
          ∃ held, bench.Stands supply base held calls (count + texts.length) after := by
  induction texts with
  | nil => exact fun stands _ => ensures_pure ⟨_, stands⟩
  | cons data rest ih =>
    intro held count w stands mine
    have mine' := mine.mono (Nat.le_succ count)
    refine (stands.create mine).bind ?_
    rintro _ w ⟨rfl, stands⟩
    refine (stands.read mine' (Catalogue.file_self _ _)).bind ?_
    rintro _ w ⟨rfl, stands⟩
    refine ensures_expect_bind (decide_eq_true rfl) ?_
    rw [List.length_cons, Nat.add_comm rest.length, ← Nat.add_assoc]
    exact ih stands mine'

end Bench.Stands

/-- The script of texts of all kinds. -/
def storesDataVerbatimScript : Script where
  uses := 4
  calls supply := storings supply (supply.user "verbatim" 0) 1
    ["", "ünïcödé ✓ \"quoted\" #hash", longText 'x' 65536]

theorem passes_storesDataVerbatim :
    bench.Passes (storesDataVerbatim bench.store) storesDataVerbatimScript := by
  intro supply base rest w good vacant stands
  refine (stands.uniqueUser "verbatim").bind ?_
  rintro _ w ⟨rfl, stands⟩
  exact stands.storeEach _ (good.names 0 (by decide) "verbatim")

/-! ## Checks on listings -/

/-- The script of a listing to its end. -/
def readAllExhaustionScript : Script where
  uses := 8
  calls supply :=
    let user := supply.user "read-all" 0
    creations supply user 1 ["d0", "d1", "d2", "d3", "d4", "d5", "d6"] ++ [.readAll user]

theorem passes_readAllExhaustion :
    bench.Passes (readAllExhaustion bench.store) readAllExhaustionScript := by
  intro supply base rest w good vacant stands
  rw [readAllExhaustionScript, List.append_assoc] at stands
  refine (stands.uniqueUser "read-all").bind ?_
  rintro _ w ⟨rfl, stands⟩
  have mine := good.names 0 (by decide) "read-all"
  have enough : 1 + ["d0", "d1", "d2", "d3", "d4", "d5", "d6"].length ≤ 8 := by decide
  have distinct := nodup_posted good (supply.user "read-all" 0) enough
  refine (stands.createNew _ mine (vacant _ (mine.mono (by decide))) distinct).bind ?_
  rintro _ w ⟨rfl, held, just, stands⟩
  refine stands.startListing.bind ?_
  rintro cursor w ⟨⟨posts, lists⟩, stands⟩
  have all := just.perm (List.Nodup.of_map _ distinct) lists.once lists.all
  refine (ensures_step (Q := fun limit after =>
    limit = bench.store.feed.pending cursor w.1 + 1 ∧ after = w) ⟨rfl, rfl⟩).bind ?_
  rintro _ _ ⟨rfl, rfl⟩
  refine (ensures_takeAll lists.delivers (Nat.lt_succ_of_le lists.few)).bind ?_
  rintro ⟨_, last⟩ _ ⟨rfl, ended, rfl⟩
  obtain ⟨beyond, stays⟩ := ended.stays
  refine (ensures_next (Q := fun step after => step = (false, beyond) ∧ after = _) stays
    ⟨rfl, rfl⟩).bind ?_
  rintro _ _ ⟨rfl, rfl⟩
  refine ensures_expect_bind rfl ?_
  exact ensures_expect (decide_eq_true (sortById_eq_of_perm all distinct)) ⟨_, stands⟩

/-- The script of a listing of nothing. -/
def readAllEmptyUserScript : Script where
  uses := 1
  calls supply := [.readAll (supply.user "empty" 0)]

theorem passes_readAllEmptyUser :
    bench.Passes (readAllEmptyUser bench.store) readAllEmptyUserScript := by
  intro supply base rest w good vacant stands
  refine (stands.uniqueUser "empty").bind ?_
  rintro _ w ⟨rfl, stands⟩
  have mine := good.names 0 (by decide) "empty"
  have nothing := Catalogue.hasJust_nil (vacant _ mine)
  refine stands.startListing.bind ?_
  rintro cursor w ⟨⟨posts, lists⟩, stands⟩
  obtain rfl := List.perm_nil.1 (nothing.perm List.nodup_nil lists.once lists.all)
  cases lists.delivers with
  | nothing stop ended =>
    refine (ensures_next (Q := fun step after => step = (false, _) ∧ after = _) stop
      ⟨rfl, rfl⟩).bind ?_
    rintro _ _ ⟨rfl, rfl⟩
    refine ensures_expect_bind rfl ?_
    simp only [ended.nothing]
    exact ensures_pure ⟨_, stands⟩

/-- The script of a listing that is given up. -/
def readAllEarlyCloseScript : Script where
  uses := 4
  calls supply :=
    let user := supply.user "early-close" 0
    creations supply user 1 ["d0", "d1", "d2"] ++ [.readAll user, .readAll user]

theorem passes_readAllEarlyClose :
    bench.Passes (readAllEarlyClose bench.store) readAllEarlyCloseScript := by
  intro supply base rest w good vacant stands
  rw [readAllEarlyCloseScript, List.append_assoc] at stands
  refine (stands.uniqueUser "early-close").bind ?_
  rintro _ w ⟨rfl, stands⟩
  have mine := good.names 0 (by decide) "early-close"
  have enough : 1 + ["d0", "d1", "d2"].length ≤ 4 := by decide
  have distinct := nodup_posted good (supply.user "early-close" 0) enough
  have once := List.Nodup.of_map _ distinct
  refine (stands.createNew _ mine (vacant _ (mine.mono (by decide))) distinct).bind ?_
  rintro _ w ⟨rfl, held, just, stands⟩
  refine stands.startListing.bind ?_
  rintro cursor w ⟨⟨posts, lists⟩, stands⟩
  have all := just.perm once lists.once lists.all
  cases lists.delivers with
  | nothing stop ended => cases all.length_eq
  | @post _ cursor' _ state' _ _ _ reached taken others =>
    obtain rfl : state' = w.1 := by
      rw [← bench.still cursor stands.shown, reached]
    refine (ensures_next (Q := fun step after => step = (true, cursor') ∧ after = _) reached
      ⟨rfl, rfl⟩).bind ?_
    rintro _ _ ⟨rfl, rfl⟩
    refine ensures_expect_bind rfl ?_
    obtain ⟨beyond, shut⟩ := bench.next_close (bench.store.feed.close cursor') stands.shown
    refine (ensures_next (Q := fun step after => step = (false, beyond) ∧ after = _) shut
      ⟨rfl, rfl⟩).bind ?_
    rintro _ _ ⟨rfl, rfl⟩
    refine ensures_expect_bind rfl ?_
    refine stands.listAll.bind ?_
    rintro listed w ⟨⟨listedOnce, listedAll⟩, stands⟩
    have length := (just.perm once listedOnce listedAll).length_eq
    exact ensures_expect (decide_eq_true length) ⟨_, stands⟩

/-- The script of two users. -/
def userIsolationScript : Script where
  uses := 5
  calls supply :=
    let alice := supply.user "alice" 0
    let bob := supply.user "bob" 1
    let id := (supply.item 2).id
    [.create alice "private" (supply.item 2), .create bob "other" (supply.item 3), .read bob id,
      .update bob id "x" (supply.item 4).clock, .delete bob id, .read alice id, .readAll bob]

theorem passes_userIsolation :
    bench.Passes (userIsolation bench.store) userIsolationScript := by
  intro supply base rest w good vacant stands
  refine (stands.uniqueUser "alice").bind ?_
  rintro _ w ⟨rfl, stands⟩
  refine (stands.uniqueUser "bob").bind ?_
  rintro _ w ⟨rfl, stands⟩
  have alices := good.names 0 (by decide) "alice"
  have bobs := good.names 1 (by decide) "bob"
  have other := good.user_ne Nat.zero_lt_one (by decide) "alice" "bob"
  have differ := good.item_ne (by decide : 2 < 3) (by decide)
  refine (stands.create (alices.mono (by decide))).bind ?_
  rintro _ w ⟨rfl, stands⟩
  refine (stands.create (bobs.mono (by decide))).bind ?_
  rintro _ w ⟨rfl, stands⟩
  -- all that is held of the second user is the post under the second identifier
  have nothing : (base.file (Post.make (supply.user "alice" 0) "private" (supply.item 2))).HasJust
      (supply.user "bob" 1) [] := by
    refine Catalogue.hasJust_nil fun id => ?_
    rw [Catalogue.file_other other]
    exact vacant _ (bobs.mono (by decide)) id
  have just := nothing.file (Post.make (supply.user "bob" 1) "other" (supply.item 3)) rfl
    List.not_mem_nil
  have foreign : (supply.item 2).id ∉
      [Post.make (supply.user "bob" 1) "other" (supply.item 3)].map Post.id :=
    fun member => differ (List.mem_singleton.1 member)
  refine (stands.absentOnRead (bobs.mono (by decide)) (just.eq_none foreign)).bind ?_
  rintro - w stands
  refine (stands.absentOnUpdate (bobs.mono (by decide)) (just.eq_none foreign)).bind ?_
  rintro - w stands
  refine (stands.delete (bobs.mono (by decide))).bind ?_
  rintro - w stands
  have found : ((base.file (Post.make (supply.user "alice" 0) "private" (supply.item 2))).file
      (Post.make (supply.user "bob" 1) "other" (supply.item 3))).drop (supply.user "bob" 1)
        (supply.item 2).id (supply.user "alice" 0) (supply.item 2).id =
      some (Post.make (supply.user "alice" 0) "private" (supply.item 2)) := by
    rw [Catalogue.drop_other _ other.symm, Catalogue.file_other other.symm]
    exact Catalogue.file_self _ _
  refine (stands.read (alices.mono (by decide)) found).bind ?_
  rintro _ w ⟨rfl, stands⟩
  refine ensures_expect_bind (decide_eq_true rfl) ?_
  refine stands.listAll.bind ?_
  rintro posts w ⟨⟨once, all⟩, stands⟩
  obtain rfl := List.perm_singleton.1
    ((just.drop foreign).perm (List.nodup_singleton _) once all)
  refine ensures_expect_bind rfl ?_
  refine ensures_expect ?_ ⟨_, stands⟩
  simp [Post.make]

/-! ## Users of all kinds -/

theorem plain_longText {c : Char} (plain : lowerHex c = false) (length : Nat) :
    ∀ c' ∈ (longText c length).toList, lowerHex c' = false := by
  intro c' member
  rw [longText, String.toList_ofList] at member
  rwa [List.eq_of_mem_replicate member]

/-- The script of users of all kinds. -/
def opaqueUserIdsScript : Script where
  uses := 4
  calls supply :=
    let long := supply.user "long" 0 ++ longText 'u' 600
    let base := supply.user "hash" 2
    let id := (supply.item 3).id
    [.create long "long" (supply.item 1), .read long (supply.item 1).id, .readAll long,
      .create (base ++ "#x") "secret" (supply.item 3), .read (base ++ "#x") id,
      .read base ("x#" ++ id), .read (base ++ "#x") id]

theorem passes_opaqueUserIds :
    bench.Passes (opaqueUserIds bench.store) opaqueUserIdsScript := by
  intro supply base rest w good vacant stands
  refine (stands.uniqueUser "long").bind ?_
  rintro _ w ⟨rfl, stands⟩
  have plain : ∀ c ∈ (longText 'u' 600).toList, lowerHex c = false :=
    plain_longText (by decide) 600
  have longs := good.names_append 0 (by decide) "long" plain
  have nothing := Catalogue.hasJust_nil (vacant _ (longs.mono (by decide)))
  have just := nothing.file (Post.make _ "long" (supply.item 1)) rfl List.not_mem_nil
  refine (stands.create longs).bind ?_
  rintro _ w ⟨rfl, stands⟩
  refine (stands.read (longs.mono (by decide)) (Catalogue.file_self _ _)).bind ?_
  rintro _ w ⟨rfl, stands⟩
  refine ensures_assert_bind (samePost_self _) ?_
  refine stands.listAll.bind ?_
  rintro posts w ⟨⟨once, all⟩, stands⟩
  have length := (just.perm (List.nodup_singleton _) once all).length_eq
  refine ensures_expect_bind (decide_eq_true length) ?_
  refine (stands.uniqueUser "hash").bind ?_
  rintro _ w ⟨rfl, stands⟩
  have bases := good.names 2 (by decide) "hash"
  have marked : ∀ c ∈ "#x".toList, lowerHex c = false := by simp [lowerHex]
  have owners := good.names_append 2 (by decide) "hash" marked
  refine (stands.create owners).bind ?_
  rintro _ w ⟨rfl, stands⟩
  refine (stands.read (owners.mono (by decide)) (Catalogue.file_self _ _)).bind ?_
  rintro _ w ⟨rfl, stands⟩
  refine ensures_assert_bind (samePost_self _) ?_
  -- the user without the mark is none of the two that posts were made for
  have other : supply.user "hash" 2 ≠ supply.user "hash" 2 ++ "#x" := by
    intro same
    have length := congrArg String.length same
    simp at length
  have missing : ((base.file (Post.make (supply.user "long" 0 ++ longText 'u' 600) "long"
      (supply.item 1))).file (Post.make (supply.user "hash" 2 ++ "#x") "secret" (supply.item 3)))
        (supply.user "hash" 2) ("x#" ++ (supply.item 3).id) = none := by
    rw [Catalogue.file_other other,
      Catalogue.file_other (good.user_ne_append Nat.zero_lt_two (by decide) "long" "hash" plain)]
    exact vacant _ (bases.mono (by decide)) _
  refine (stands.absentOnRead (bases.mono (by decide)) missing).bind ?_
  rintro - w stands
  refine (stands.read (owners.mono (by decide)) (Catalogue.file_self _ _)).bind ?_
  rintro _ w ⟨rfl, stands⟩
  exact ensures_unwrap (samePost_self _) ⟨_, stands⟩

/-! ## The suite -/

/-- The scripts of the checks, in the order in which the suite runs them. -/
def scripts : List Script :=
  [roundTripScript, notFoundOnMissScript, updateSemanticsScript, idempotentDeleteScript,
    readAllExhaustionScript, readAllEmptyUserScript, readAllEarlyCloseScript, userIsolationScript,
    storesDataVerbatimScript, opaqueUserIdsScript, exampleScenarioScript]

/-- The script of the suite. -/
def suiteScript : Script := scripts.foldr .andThen .nothing

/-- Checks pass one after the other when each of them passes. -/
theorem passes_forM {checks : List (String × Check ω Unit)} {scripts : List Script}
    (passes : List.Forall₂ (fun check script => bench.Passes check.2 script) checks scripts) :
    bench.Passes (checks.forM fun check => check.2) (scripts.foldr .andThen .nothing) := by
  induction passes with
  | nil => exact Bench.passes_nothing
  | cons first _ ih => exact first.andThen ih

/-- Every check of the suite passes by its script. -/
theorem passes_checks (bench : Bench ω κ) :
    List.Forall₂ (fun check script => bench.Passes check.2 script) (checks bench.store) scripts :=
  .cons passes_roundTrip <| .cons passes_notFoundOnMiss <| .cons passes_updateSemantics <|
    .cons passes_idempotentDelete <| .cons passes_readAllExhaustion <|
    .cons passes_readAllEmptyUser <| .cons passes_readAllEarlyClose <|
    .cons passes_userIsolation <| .cons passes_storesDataVerbatim <|
    .cons passes_opaqueUserIds <| .cons passes_exampleScenario .nil

/-- **The suite passes.** -/
theorem passes_runAll (bench : Bench ω κ) : bench.Passes (runAll bench.store) suiteScript :=
  passes_forM (passes_checks bench)

end Checks

end Conformance

end PostStore
