import PostStore.Calendar.Instant
/-!
# Posts

A post belongs to a user, has an identifier among that user's posts, and carries text.  Changing the
text keeps the identity and the time of creation, and moves the time of the last change forward.
-/

namespace PostStore

/-- A text that a user has posted. -/
structure Post where
  user : String
  id : String
  data : String
  createdAt : Instant
  updatedAt : Instant
  deriving DecidableEq, Inhabited

/-- What the making of a post draws on: an identifier not used before and the reading of a clock. -/
structure Fresh where
  id : String
  clock : ClockReading
  deriving DecidableEq, Inhabited

namespace Post

/-- A new post, created and last changed at the clock reading in whole microseconds. -/
def make (user data : String) (fresh : Fresh) : Post :=
  ⟨user, fresh.id, data, fresh.clock.truncateToMicros, fresh.clock.truncateToMicros⟩

/-- The post with other text, changed at a clock reading; nothing when no instant follows the last
change. -/
def withData? (post : Post) (data : String) (clock : Instant) : Option Post :=
  (Instant.next? post.updatedAt clock).map fun t => { post with data := data, updatedAt := t }

/-- What separates user and identifier in a cache key. -/
def keySeparator : Char := '#'

/-- The key under which caches file a post. -/
def cacheKey (user id : String) : String := user ++ keySeparator.toString ++ id

/-- The key under which caches file this post. -/
def key (post : Post) : String := cacheKey post.user post.id

/-- Changing the text keeps who posted it, under what identifier and when. -/
theorem withData?_identity {post changed : Post} {data : String} {clock : Instant}
    (h : post.withData? data clock = some changed) :
    changed.user = post.user ∧ changed.id = post.id ∧ changed.data = data ∧
      changed.createdAt = post.createdAt := by
  unfold withData? at h
  obtain ⟨t, _, rfl⟩ := Option.map_eq_some_iff.1 h
  exact ⟨rfl, rfl, rfl, rfl⟩

/-! ## Leap seconds -/

/-- Where a leap second runs in the times of the post, it ends a minute. -/
structure Regular (post : Post) : Prop where
  createdAt : post.createdAt.Regular
  updatedAt : post.updatedAt.Regular

instance (post : Post) : Decidable post.Regular :=
  decidable_of_iff (post.createdAt.Regular ∧ post.updatedAt.Regular)
    ⟨fun ⟨created, updated⟩ => ⟨created, updated⟩, fun regular => ⟨regular.1, regular.2⟩⟩

theorem regular_make (user data : String) (fresh : Fresh) : (make user data fresh).Regular :=
  ⟨fresh.clock.regular.truncateToMicros, fresh.clock.regular.truncateToMicros⟩

theorem Regular.withData? {post changed : Post} {data : String} {clock : Instant}
    (regular : post.Regular) (reading : clock.Regular)
    (h : post.withData? data clock = some changed) : changed.Regular := by
  obtain ⟨t, later, rfl⟩ := Option.map_eq_some_iff.1 h
  exact ⟨regular.createdAt, regular.updatedAt.next? reading later⟩

end Post

end PostStore
