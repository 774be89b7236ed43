import Mathlib.Order.Defs.LinearOrder
import PostStore.Proofs.CivilTime
import PostStore.Proofs.LastInstant
import PostStore.Proofs.Timestamps
/-!
# Posts changed again and again

The time of a change is the later of the clock reading and the instant a microsecond after the last
change, wherever on the time line that is.  So whatever the clock reads, a post that is changed
again and again goes through versions that are all of one identity and each later than the one
before, until one of them is changed in the last microsecond there is.
-/

namespace PostStore

namespace Instant

/-! ## The time of a change -/

instance : LinearOrder Instant where
  le_refl := le_refl
  le_trans a b c ab bc := by
    rw [le_def] at *
    omega
  lt_iff_le_not_ge a b := by
    rw [lt_def, le_def, le_def]
    omega
  le_antisymm a b ab ba := by
    rw [le_def] at ab ba
    obtain ⟨seconds, nanos⟩ : a.seconds = b.seconds ∧ a.nanos = b.nanos := by omega
    exact civil_injective (Civil.ofParts_inj.2 ⟨seconds, nanos⟩)
  le_total a b := by
    rw [le_def, le_def]
    omega
  toDecidableLE := inferInstance
  toDecidableEq := inferInstance
  toDecidableLT := inferInstance

/-- The nanoseconds from one instant to one that is not before it.  When a leap second is left, its
second counts as well. -/
def nanosUntil (t later : Instant) : Int :=
  (later.seconds - t.seconds) * 1000000000 + (later.nanos - t.nanos) +
    if 1000000000 ≤ t.nanos ∧ t.seconds < later.seconds then 1000000000 else 0

theorem nanosUntil_of_addMicro? {t later : Instant} (h : t.addMicro? = some later) :
    t.nanosUntil later = 1000 := by
  have fine := t.fine
  unfold nanosUntil
  simp only [addMicro?] at h
  split at h <;> split at h <;> obtain ⟨seconds, nanos⟩ := ofParts?_eq_some h <;> split <;> omega

/-- The time of a change is the later one of the clock reading and a microsecond after the last. -/
theorem next?_eq_max (previous clock : Instant) :
    next? previous clock = previous.addMicro?.map (max clock.truncateToMicros) := by
  unfold next?
  congr 1
  funext floor
  split
  case isTrue ahead => exact (max_eq_left (le_of_lt ahead)).symm
  case isFalse behind => exact (max_eq_right (not_lt.1 behind)).symm

/-! ## The end of the time line -/

/-- The last microsecond of the time line, counted from 1970. -/
def lastMicro : Int := lastSecond * 1000000 + 999999

theorem not_isLast_of_lt {t : Instant} (h : t.toMicros < lastMicro) : ¬ t.IsLast := by
  rintro ⟨last, fraction⟩
  unfold toMicros lastMicro at h
  omega

theorem toMicros_mono_addMicro? {t later : Instant} (h : t.addMicro? = some later) :
    later.toMicros ≤ t.toMicros + 1 := by
  have fine := t.fine
  unfold toMicros
  simp only [addMicro?] at h
  split at h <;> split at h <;> obtain ⟨seconds, nanos⟩ := ofParts?_eq_some h <;> omega

theorem toMicros_truncateToMicros (t : Instant) : t.truncateToMicros.toMicros = t.toMicros := by
  simp only [toMicros, truncateToMicros]
  omega

/-- A change takes place in the microsecond of the clock reading, or in the one after the last. -/
theorem toMicros_le_of_next? {previous clock t : Instant} (h : next? previous clock = some t) :
    t.toMicros ≤ max clock.toMicros (previous.toMicros + 1) := by
  rw [next?_eq_max] at h
  obtain ⟨floor, step, rfl⟩ := Option.map_eq_some_iff.1 h
  have near := toMicros_mono_addMicro? step
  have read := toMicros_truncateToMicros clock
  rcases max_choice clock.truncateToMicros floor with same | same <;> rw [same] <;> omega

end Instant

/-! ## Versions -/

namespace Post

/-- The versions of a post after one change and another, each made of the one before at a clock
reading; none if some change has no time. -/
def revisions? (post : Post) : List (String × Instant) → Option (List Post)
  | [] => some []
  | (data, clock) :: rest =>
    (post.withData? data clock).bind fun changed => (changed.revisions? rest).map (changed :: ·)

/-- The versions of a post have the texts they were given, one after the other, and the identity
and the time of creation of the post; and each is changed later than those before. -/
structure Revisions (post : Post) (texts : List String) (versions : List Post) : Prop where
  texts_eq : versions.map (·.data) = texts
  identity : ∀ version ∈ versions,
    version.user = post.user ∧ version.id = post.id ∧ version.createdAt = post.createdAt
  increasing : ((post :: versions).map (·.updatedAt)).Pairwise (· < ·)

variable {post changed : Post} {data : String} {clock : Instant} {versions : List Post}
  {changes : List (String × Instant)}

theorem Revisions.nil (post : Post) : Revisions post [] [] where
  texts_eq := rfl
  identity := List.forall_mem_nil _
  increasing := List.pairwise_singleton (· < ·) post.updatedAt

theorem Revisions.cons {texts : List String} (h : post.withData? data clock = some changed)
    (later : Revisions changed texts versions) :
    Revisions post (data :: texts) (changed :: versions) := by
  obtain ⟨user, id, text, created⟩ := withData?_identity h
  have ahead := lt_of_withData? h
  have increasing := later.increasing
  rw [List.map_cons, List.pairwise_cons] at increasing
  refine ⟨?_, ?_, ?_⟩
  · rw [List.map_cons, text, later.texts_eq]
  · rintro version (_ | ⟨_, listed⟩)
    · exact ⟨user, id, created⟩
    · rw [← user, ← id, ← created]
      exact later.identity version listed
  · rw [List.map_cons, List.pairwise_cons]
    refine ⟨?_, later.increasing⟩
    rintro t (_ | ⟨_, listed⟩)
    · exact ahead
    · exact ahead.trans (increasing.1 t listed)

theorem revisions?_cons_eq_some :
    post.revisions? ((data, clock) :: changes) = some versions ↔
      ∃ changed rest, post.withData? data clock = some changed ∧
        changed.revisions? changes = some rest ∧ versions = changed :: rest := by
  rw [revisions?, Option.bind_eq_some_iff]
  constructor
  · rintro ⟨changed, made, follows⟩
    obtain ⟨rest, later, rfl⟩ := Option.map_eq_some_iff.1 follows
    exact ⟨changed, rest, made, later, rfl⟩
  · rintro ⟨changed, rest, made, later, rfl⟩
    exact ⟨changed, made, Option.map_eq_some_iff.2 ⟨rest, later, rfl⟩⟩

theorem revisions_of_revisions? (h : post.revisions? changes = some versions) :
    Revisions post (changes.map (·.1)) versions := by
  induction changes generalizing post versions with
  | nil =>
    obtain rfl := Option.some.inj h
    exact .nil post
  | cons change rest ih =>
    obtain ⟨changed, later, made, follows, rfl⟩ := revisions?_cons_eq_some.1 h
    exact .cons made (ih follows)

/-- The versions end early just if one of them, or the post itself, is of the last microsecond and
is to be changed. -/
theorem revisions?_eq_none_iff :
    post.revisions? changes = none ↔ ∃ front change back versions,
      changes = front ++ change :: back ∧ post.revisions? front = some versions ∧
        (versions.getLastD post).updatedAt.IsLast := by
  induction changes generalizing post with
  | nil =>
    refine iff_of_false (Option.some_ne_none []) ?_
    rintro ⟨front, change, back, -, nothing, -⟩
    exact List.append_ne_nil_of_right_ne_nil front (List.cons_ne_nil change back) nothing.symm
  | cons change rest ih =>
    obtain ⟨data, clock⟩ := change
    cases made : post.withData? data clock with
    | none =>
      have last := withData?_eq_none.1 made
      refine iff_of_true ?_ ⟨[], (data, clock), rest, [], rfl, rfl, last⟩
      rw [revisions?, made, Option.bind_none]
    | some changed =>
      have early : ¬ post.updatedAt.IsLast := fun last =>
        nomatch made.symm.trans (withData?_eq_none.2 last)
      rw [revisions?, made, Option.bind_some, Option.map_eq_none_iff, ih]
      constructor
      · rintro ⟨front, change, back, versions, rfl, follows, last⟩
        refine ⟨(data, clock) :: front, change, back, changed :: versions, rfl, ?_, ?_⟩
        · exact revisions?_cons_eq_some.2 ⟨changed, versions, made, follows, rfl⟩
        · rw [List.getLastD_cons]
          exact last
      · rintro ⟨front, change, back, versions, split, follows, last⟩
        rcases front with _ | ⟨first, front⟩
        · -- the post itself can be changed, so it is not of the last microsecond
          obtain rfl := Option.some.inj follows
          exact absurd last early
        · obtain ⟨rfl, rfl⟩ := List.cons.inj split
          obtain ⟨other, later, made', rest, rfl⟩ := revisions?_cons_eq_some.1 follows
          obtain rfl := Option.some.inj (made.symm.trans made')
          rw [List.getLastD_cons] at last
          exact ⟨front, change, back, later, rfl, rest, last⟩

/-- There is room for changes where neither the post nor a clock reading is as near to the end of
the time line as there are changes. -/
theorem exists_revisions? (room : post.updatedAt.toMicros + changes.length ≤ Instant.lastMicro)
    (clocks : ∀ change ∈ changes, change.2.toMicros + changes.length ≤ Instant.lastMicro) :
    ∃ versions, post.revisions? changes = some versions := by
  induction changes generalizing post with
  | nil => exact ⟨[], rfl⟩
  | cons change rest ih =>
    obtain ⟨data, clock⟩ := change
    rw [List.length_cons] at room clocks
    have early : ¬ post.updatedAt.IsLast := Instant.not_isLast_of_lt (by omega)
    cases made : post.withData? data clock with
    | none => exact absurd (withData?_eq_none.1 made) early
    | some changed =>
      obtain ⟨t, next, rfl⟩ := Option.map_eq_some_iff.1 made
      have near := Instant.toMicros_le_of_next? next
      have read : clock.toMicros + (rest.length + 1 : Nat) ≤ Instant.lastMicro :=
        clocks (data, clock) List.mem_cons_self
      have room' : ({ post with data := data, updatedAt := t } : Post).updatedAt.toMicros +
          rest.length ≤ Instant.lastMicro := by
        show t.toMicros + rest.length ≤ Instant.lastMicro
        omega
      obtain ⟨later, follows⟩ := ih room' fun change listed => by
        have := clocks change (List.mem_cons_of_mem _ listed)
        omega
      exact ⟨_, revisions?_cons_eq_some.2 ⟨_, later, made, follows, rfl⟩⟩

/-- **Changes take place exactly and in order.**  Where the clock can show a microsecond more than
at the last change, that instant is a thousand nanoseconds later, the next change is made then or at
the clock reading, whichever is later, and this is later than the last change.  Where it cannot,
there is no next change.  A post that is changed again and again keeps its identity and its time of
creation, has the texts it is given, and is changed later each time.  There is a version for each
change unless the one before it is of the last microsecond, which it is not where the post and the
clock readings are far enough from the end of the time line. -/
theorem revised_in_order :
    (∀ previous clock floor : Instant, floor.civil = previous.civil.tick →
      previous.nanosUntil floor = 1000 ∧
      Instant.next? previous clock = some (max clock.truncateToMicros floor) ∧
      previous < max clock.truncateToMicros floor) ∧
    (∀ previous clock : Instant, Instant.next? previous clock = none ↔
      ∀ floor : Instant, floor.civil ≠ previous.civil.tick) ∧
    (∀ post changes versions, revisions? post changes = some versions →
      Revisions post (changes.map (·.1)) versions) ∧
    (∀ post changes, revisions? post changes = none ↔ ∃ front change back versions,
      changes = front ++ change :: back ∧ post.revisions? front = some versions ∧
        (versions.getLastD post).updatedAt.IsLast) ∧
    ∀ (post : Post) (changes : List (String × Instant)),
      post.updatedAt.toMicros + changes.length ≤ Instant.lastMicro →
      (∀ change ∈ changes, change.2.toMicros + changes.length ≤ Instant.lastMicro) →
      ∃ versions, post.revisions? changes = some versions := by
  refine ⟨fun previous clock floor shown => ?_, fun previous clock => ?_, fun _ _ _ => ?_,
    fun _ _ => revisions?_eq_none_iff, fun _ _ => exists_revisions?⟩
  · have step := Instant.addMicro?_eq_some_iff.2 shown
    refine ⟨Instant.nanosUntil_of_addMicro? step, ?_, ?_⟩
    · rw [Instant.next?_eq_max, step, Option.map_some]
    · exact lt_max_of_lt_right (Instant.lt_of_addMicro? step)
  · rw [Instant.next?_eq_max, Option.map_eq_none_iff, Option.eq_none_iff_forall_ne_some]
    exact forall_congr' fun floor => not_congr Instant.addMicro?_eq_some_iff
  · exact revisions_of_revisions?

/-- A leap second before a new year is left for the first of January; and a clock that stands still
in it has a post go through versions that are each later than the one before. -/
theorem revised_in_order_newYear :
    let leaving : Instant := ⟨1483228799, 1999999500, by decide, by decide⟩
    let midnight : Instant := ⟨1483228800, 500, by decide, by decide⟩
    let post : Post := ⟨"u", "p", "a", leaving, leaving⟩
    let changes := [("b", leaving), ("c", leaving), ("d", leaving)]
    (leaving.civil = ⟨⟨2016, 12, 31⟩, 86399, 1999999500⟩ ∧
        midnight.civil = ⟨⟨2017, 1, 1⟩, 0, 500⟩) ∧
      (leaving.nanosUntil midnight = 1000 ∧ Instant.next? leaving leaving = some midnight ∧
        leaving < midnight) ∧
      ∃ versions, post.revisions? changes = some versions ∧
        Revisions post ["b", "c", "d"] versions := by
  intro leaving midnight post changes
  obtain ⟨exact, -, inOrder, -, room⟩ := revised_in_order
  refine ⟨⟨by decide, by decide⟩, exact leaving leaving midnight (by decide), ?_⟩
  obtain ⟨versions, made⟩ := room post changes (by decide) (by decide)
  exact ⟨versions, made, inOrder post changes versions made⟩

end Post

end PostStore
