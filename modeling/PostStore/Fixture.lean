import PostStore.Stack.Basic
/-!
# Fixtures

Ready-made users, posts and stacks for trying things out.
-/

namespace PostStore.Fixture

/-- A user named with an identifier that was not used before. -/
def user (label id : String) : String := label ++ "-" ++ id

/-- A post that has not been stored anywhere. -/
def samplePost (fresh : Fresh) : Post := Post.make "user-1" "sample post" fresh

/-- The store in memory behind a cache in memory with room for at least one entry. -/
def cachedMemory (capacity : Nat) : Stack := ⟨.memory, some (.lru (max capacity 1))⟩

/-- The store in memory without a cache. -/
def uncachedMemory : Stack := ⟨.memory, some .absent⟩

end PostStore.Fixture
