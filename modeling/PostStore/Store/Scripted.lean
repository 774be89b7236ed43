import PostStore.Store.Feed
/-!
# Scripted feeds

A feed that plays a given list of elements and counts how often it is advanced and closed, for
trying out whatever reads a feed.
-/

namespace PostStore

/-- A feed that plays a script: what is left of it, the element that stands ready, and counts. -/
structure ScriptedFeed where
  rest : List (Except StoreError Post)
  current : Except StoreError Post := .error .misuse
  nexts : Nat := 0
  closes : Nat := 0

namespace ScriptedFeed

/-- Serves what a feed can be asked. -/
def serve : (question : FeedAsk) → ScriptedFeed → question.Reply × ScriptedFeed
  | .next, feed =>
    match feed.rest with
    | [] => (false, { feed with nexts := feed.nexts + 1 })
    | element :: rest =>
      (true, { feed with rest := rest, current := element, nexts := feed.nexts + 1 })
  | .get, feed => (feed.current, feed)
  | .close, feed => ((), { feed with closes := feed.closes + 1 })

/-- Collects the elements of a script. -/
def collect (script : List (Except StoreError Post)) :
    Except StoreError (List Post) × ScriptedFeed :=
  (PostStore.collect (script.length + 1)).run serve { rest := script }

end ScriptedFeed

end PostStore
