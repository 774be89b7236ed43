import PostStore.Proofs.Draining
import PostStore.Proofs.Lmdb.Transactions
/-!
# Pages of a listing

What is ahead of a mark are the entries of the user whose keys the mark faces: all of them at first,
and later those behind the last key seen.  A page is the first part of that, the mark behind the
page faces the rest, and so the pages one after the other are what the file holds of the user.
-/

namespace PostStore.Lmdb

/-! ## What a mark faces -/

namespace Mark

/-- Whether a key is behind the last key that a listing has seen. -/
def faces (mark : Mark) (key : Bytes) : Bool := mark.after.all fun last => decide (last < key)

/-- A mark that a listing of a user can have. -/
structure Fit (user : String) (mark : Mark) : Prop where
  owner : mark.owner = userKey user
  after : ∀ last ∈ mark.after, mark.owner <+: last
  pageSize : 0 < mark.pageSize

/-- The mark at which a listing begins. -/
theorem fit_first (user : String) {pageSize : Nat} (positive : 0 < pageSize) :
    Fit user ⟨userKey user, none, pageSize⟩ :=
  ⟨rfl, (fun _ last => nomatch last), positive⟩

end Mark

namespace Entries

variable {entries : Entries} {mark : Mark} {user : String}

/-- What is ahead of a mark is what starts like the user's keys and what the mark faces. -/
theorem Sorted.ahead_eq (sorted : entries.Sorted) (fit : mark.Fit user) :
    entries.ahead mark =
      entries.filter fun entry => mark.owner.isPrefixOf entry.1 && mark.faces entry.1 := by
  -- from the lower bound on no key comes before the start of the user's keys
  have ge : ∀ entry ∈ entries.from mark, ¬ entry.1 < mark.owner := by
    intro entry member before
    have above := (List.mem_filter.1 member).2
    rw [within] at above
    cases marked : mark.after with
    | none =>
      simp only [marked, Option.getD_none, Option.isNone_none, Bool.true_and, Bool.or_eq_true,
        decide_eq_true_eq] at above
      rcases above with behind | here
      · exact List.lt_irrefl _ (List.lt_trans before behind)
      · exact List.lt_irrefl _ (here ▸ before)
    | some last =>
      simp only [marked, Option.getD_some, Option.isNone_some, Bool.false_and, Bool.or_false,
        decide_eq_true_eq] at above
      exact not_lt_of_isPrefix (fit.after last marked) (List.lt_trans above before)
  have sortedFrom : Sorted (entries.from mark) :=
    List.Pairwise.sublist List.filter_sublist sorted
  rw [ahead, sortedFrom.takeWhile_isPrefix ge, Entries.from, List.filter_filter]
  refine List.filter_congr fun entry _ => ?_
  cases start : mark.owner.isPrefixOf entry.1 with
  | false => rfl
  | true =>
    rw [Bool.true_and, Bool.true_and, Mark.faces, within]
    cases marked : mark.after with
    | some last => simp
    | none =>
      -- a key with the start is the start itself or comes behind it
      have notBefore := not_lt_of_isPrefix (List.isPrefixOf_iff_prefix.1 start)
      by_cases same : entry.1 = mark.owner
      · simp [same]
      · simp [same, (lt_or_lt same).resolve_left notBefore]

theorem sublist_ahead (sorted : entries.Sorted) (fit : mark.Fit user) :
    (entries.ahead mark).Sublist entries := by
  rw [sorted.ahead_eq fit]
  exact List.filter_sublist

end Entries

/-! ## Behind a page -/

section Behind

variable {entries : Entries} {mark next : Mark} {user : String}

/-- What is behind the first few of ascending entries is what comes behind the last of them. -/
theorem Entries.Sorted.drop_eq (sorted : entries.Sorted) (count : Nat) {last : Bytes × Bytes}
    (reached : (entries.take count).getLast? = some last) :
    entries.drop count = entries.filter fun entry => decide (last.1 < entry.1) := by
  have split := sorted
  rw [Sorted, ← List.take_append_drop count entries, List.pairwise_append] at split
  obtain ⟨front, _, across⟩ := split
  obtain ⟨others, eq⟩ := List.getLast?_eq_some_iff.1 reached
  have seen : (entries.take count).filter (fun entry => decide (last.1 < entry.1)) = [] := by
    rw [List.filter_eq_nil_iff]
    intro entry member behind
    rw [decide_eq_true_eq] at behind
    rw [eq] at member front
    rcases List.mem_append.1 member with earlier | here
    · have before :=
        (List.pairwise_append.1 front).2.2 entry earlier last (List.mem_singleton_self _)
      exact List.lt_irrefl _ (List.lt_trans before behind)
    · obtain rfl := List.mem_singleton.1 here
      exact List.lt_irrefl _ behind
  have unseen : (entries.drop count).filter (fun entry => decide (last.1 < entry.1)) =
      entries.drop count := by
    rw [List.filter_eq_self]
    intro entry member
    exact decide_eq_true (across last (List.mem_of_getLast? reached) entry member)
  calc entries.drop count
      = (entries.take count ++ entries.drop count).filter
          fun entry => decide (last.1 < entry.1) := by
        rw [List.filter_append, seen, unseen, List.nil_append]
    _ = entries.filter fun entry => decide (last.1 < entry.1) := by rw [List.take_append_drop]

/-- A mark behind a page is that of a listing again, and stands at the last key of the page. -/
theorem Mark.Fit.behind (fit : mark.Fit user) {page : Entries}
    (onward : mark.behind page = some next)
    (starts : ∀ entry ∈ page, mark.owner <+: entry.1) :
    next.Fit user ∧ next.owner = mark.owner ∧ next.pageSize = mark.pageSize ∧
      ∃ last, page.getLast? = some last ∧ next.after = some last.1 := by
  have positive := fit.pageSize
  unfold Mark.behind at onward
  split at onward
  · cases onward
  · rename_i full
    cases reached : page.getLast? with
    | none =>
      have empty : page.length = 0 := by rw [List.getLast?_eq_none_iff.1 reached, List.length_nil]
      omega
    | some last =>
      rw [reached] at onward
      obtain rfl := Option.some.inj onward
      refine ⟨⟨fit.owner, ?_, positive⟩, rfl, rfl, last, rfl, rfl⟩
      intro key seen
      obtain rfl := Option.some.inj seen
      exact starts last (List.mem_of_getLast? reached)

/-- What is ahead of the mark behind a page is what is ahead of the page, without the page. -/
theorem Entries.Sorted.ahead_behind (sorted : entries.Sorted) (fit : mark.Fit user)
    (onward : mark.behind ((entries.ahead mark).take mark.pageSize) = some next) :
    next.Fit user ∧ (entries.ahead mark).take mark.pageSize ≠ [] ∧
      entries.ahead next = (entries.ahead mark).drop mark.pageSize ∧
      ∀ key, next.faces key = true → mark.faces key = true := by
  have ahead := sorted.ahead_eq fit
  have sortedAhead : (entries.ahead mark).Sorted :=
    List.Pairwise.sublist (Entries.sublist_ahead sorted fit) sorted
  have inside : ∀ entry ∈ (entries.ahead mark).take mark.pageSize,
      mark.owner <+: entry.1 ∧ mark.faces entry.1 = true := by
    intro entry member
    have faced := List.mem_of_mem_take member
    rw [ahead, List.mem_filter, Bool.and_eq_true, List.isPrefixOf_iff_prefix] at faced
    exact faced.2
  obtain ⟨fit', owner, _, last, reached, after⟩ :=
    fit.behind onward fun entry member => (inside entry member).1
  have lastFaced := (inside last (List.mem_of_getLast? reached)).2
  have faces : ∀ key, next.faces key = decide (last.1 < key) := by
    intro key
    rw [Mark.faces, after, Option.all_some]
  -- what comes behind the last key seen comes behind the key that the page began with
  have onlyMore : ∀ key, last.1 < key → mark.faces key = true := by
    intro key behind
    unfold Mark.faces at lastFaced ⊢
    cases marked : mark.after with
    | none => rfl
    | some earlier =>
      rw [marked, Option.all_some, decide_eq_true_eq] at lastFaced
      exact decide_eq_true (List.lt_trans lastFaced behind)
  refine ⟨fit', ?_, ?_, ?_⟩
  · intro empty
    rw [empty] at reached
    cases reached
  · rw [sortedAhead.drop_eq mark.pageSize reached, ahead, sorted.ahead_eq fit', owner,
      List.filter_filter]
    refine List.filter_congr fun entry _ => ?_
    rw [faces]
    by_cases behind : last.1 < entry.1
    · simp [behind, onlyMore entry.1 behind]
    · simp [behind]
  · intro key facing
    rw [faces, decide_eq_true_eq] at facing
    exact onlyMore key facing

/-- Behind a page that is not full there is nothing. -/
theorem Entries.take_of_behind
    (short : mark.behind ((entries.ahead mark).take mark.pageSize) = none) :
    (entries.ahead mark).take mark.pageSize = entries.ahead mark := by
  unfold Mark.behind at short
  split at short
  · rename_i few
    rw [List.length_take] at few
    exact List.take_of_length_le (by omega)
  · cases short

end Behind

/-! ## Posts in the pages -/

namespace Entries

/-- The posts in the documents. -/
def posts (entries : Entries) : List Post :=
  entries.filterMap fun entry => (decode entry.2).toOption

theorem mem_posts {entries : Entries} {post : Post} :
    post ∈ entries.posts ↔ ∃ entry ∈ entries, decode entry.2 = .ok post := by
  simp only [posts, List.mem_filterMap, toOption_eq_some]

theorem posts_append (front back : Entries) : posts (front ++ back) = posts front ++ posts back :=
  List.filterMap_append

namespace Stocked

variable {names : Set String} {entries : Entries} {user : String} {mark : Mark}

/-- Part of what is filed right is filed right. -/
theorem sublist (stocked : Stocked names entries) {part : Entries} (sub : part.Sublist entries) :
    Stocked names part :=
  ⟨List.Pairwise.sublist sub stocked.sorted, fun entry member =>
    stocked.filed entry (sub.subset member)⟩

/-- Every document is that of a post, filed under the key of the post. -/
theorem map_posts (stocked : Stocked names entries) :
    (entries.map Prod.snd).map decode = entries.posts.map .ok ∧
      entries.posts.map (fun post => postKey post.user post.id) = entries.map Prod.fst := by
  induction entries with
  | nil => exact ⟨rfl, rfl⟩
  | cons entry rest ih =>
    obtain ⟨documents, keys⟩ := ih (stocked.sublist (List.sublist_cons_self _ _))
    obtain ⟨post, decoded, key, _⟩ := stocked.filed entry List.mem_cons_self
    have first : Entries.posts (entry :: rest) = post :: Entries.posts rest := by
      simp [posts, decoded, Except.toOption]
    rw [first]
    simp [documents, keys, decoded, key]

/-- No two posts have the same key, and so no post is there twice. -/
theorem nodup_posts (stocked : Stocked names entries) :
    (entries.posts.map fun post => postKey post.user post.id).Nodup := by
  rw [stocked.map_posts.2, List.Nodup, List.pairwise_map]
  refine stocked.sorted.imp ?_
  intro entry later before same
  rw [same] at before
  exact List.lt_irrefl _ before

/-- The posts ahead of a mark are what is held of the user under the keys that the mark faces. -/
theorem mem_posts_ahead (stocked : Stocked names entries) (distinct : Distinct names)
    (known : user ∈ names) (fit : mark.Fit user) {post : Post} :
    post ∈ (entries.ahead mark).posts ↔
      entries.held user post.id = some post ∧ mark.faces (postKey user post.id) = true := by
  rw [mem_posts, held_eq_some stocked.sorted]
  constructor
  · rintro ⟨entry, member, decoded⟩
    rw [stocked.sorted.ahead_eq fit, List.mem_filter, Bool.and_eq_true,
      List.isPrefixOf_iff_prefix] at member
    obtain ⟨member, start, faced⟩ := member
    obtain ⟨_, decoded', key, hu, _⟩ := stocked.filed entry member
    obtain rfl := Except.ok.inj (decoded.symm.trans decoded')
    rw [key, fit.owner] at start
    obtain rfl := distinct.user_of_isPrefix known hu start
    rw [key] at faced
    exact ⟨⟨entry.2, key ▸ member, decoded, rfl, rfl⟩, faced⟩
  · rintro ⟨⟨document, member, decoded, rfl, -⟩, faced⟩
    refine ⟨(postKey post.user post.id, document), ?_, decoded⟩
    rw [stocked.sorted.ahead_eq fit, List.mem_filter, Bool.and_eq_true,
      List.isPrefixOf_iff_prefix, fit.owner]
    exact ⟨member, isPrefix_userKey _ _, faced⟩

/-- The posts ahead of a mark are those of the page and those ahead of the mark behind it. -/
theorem posts_ahead (stocked : Stocked names entries) (fit : mark.Fit user) :
    (entries.ahead mark).posts = posts ((entries.ahead mark).take mark.pageSize) ++
      ((mark.behind ((entries.ahead mark).take mark.pageSize)).map fun next =>
        (entries.ahead next).posts).getD [] := by
  cases onward : mark.behind ((entries.ahead mark).take mark.pageSize) with
  | none =>
    rw [take_of_behind onward]
    exact (List.append_nil _).symm
  | some next =>
    obtain ⟨_, _, rest, _⟩ := stocked.sorted.ahead_behind fit onward
    rw [Option.map_some, Option.getD_some, rest, ← posts_append, List.take_append_drop]

end Stocked

end Entries

/-! ## One page after the other -/

/-- As long as nothing else happens, the pages from a mark on are what is ahead of it. -/
theorem pages_ahead {env : Environment} {names : Set String} {user : String}
    (settled : env.draft = none) (free : env.readerHeld = false)
    (stocked : env.entries.Stocked names) (count : Nat) :
    ∀ {mark : Mark}, mark.Fit user → (env.entries.ahead mark).length ≤ count →
      Cursor.Ahead (fun mark => transact (fetchPage mark)) (some mark) env
        ((env.entries.ahead mark).map Prod.snd) env := by
  -- on a bound of what is ahead: a mark behind a page has a whole page less ahead of it
  induction count with
  | zero =>
    intro mark fit few
    have nothing : env.entries.ahead mark = [] := List.eq_nil_of_length_eq_zero (Nat.le_zero.1 few)
    have positive := fit.pageSize
    have fetched : transact (fetchPage mark) env = (.ok ([], none), env) := by
      rw [transact_fetchPage settled stocked.sorted, free, nothing]
      simp [Mark.behind, positive]
    rw [nothing]
    exact .last fetched
  | succ count ih =>
    intro mark fit few
    have fetched := transact_fetchPage settled stocked.sorted mark
    rw [free, if_neg Bool.false_ne_true] at fetched
    cases onward : mark.behind ((env.entries.ahead mark).take mark.pageSize) with
    | none =>
      rw [onward, Entries.take_of_behind onward] at fetched
      by_cases nothing : env.entries.ahead mark = []
      · rw [nothing] at fetched ⊢
        exact .last fetched
      · have nonempty : (env.entries.ahead mark).map Prod.snd ≠ [] :=
          mt List.map_eq_nil_iff.1 nothing
        rw [← List.append_nil ((env.entries.ahead mark).map Prod.snd)]
        exact .page fetched nonempty (.nothing env)
    | some next =>
      obtain ⟨fit', nonempty, rest, _⟩ := stocked.sorted.ahead_behind fit onward
      have fewer : (env.entries.ahead next).length ≤ count := by
        have positive := fit.pageSize
        rw [rest, List.length_drop]
        omega
      have more := ih fit' fewer
      rw [onward] at fetched
      have whole := Cursor.Ahead.page fetched (mt List.map_eq_nil_iff.1 nonempty) more
      rwa [rest, ← List.map_append, List.take_append_drop] at whole

end PostStore.Lmdb
