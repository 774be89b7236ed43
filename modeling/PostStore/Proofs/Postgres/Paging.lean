import PostStore.Proofs.Paging
import PostStore.Proofs.Postgres.Rows
/-!
# Listings of the table while others write

A page is what the database selects behind an identifier, in order and up to a limit.  The next page
is selected behind the last identifier of this one, so a listing goes through the user's posts in
order, whatever is inserted, changed and deleted in between.
-/

namespace PostStore.Postgres

/-! ## The store over any server -/

section Serving

variable {σ α : Type} (serve : (question : Ask) → σ → question.Reply × σ)

/-- Runs statements on a server. -/
def converseWith (talk : Talk α) (s : σ) : Except StoreError α × σ := Dialogue.run serve talk.run s

/-- The store over any server of its statements.  What is listed from a mark has at most `bound`
rows. -/
def storeOver (pageSize : Nat) (bound : Mark → σ → Nat) : Store σ Rows where
  name := storeName
  serve call := converseWith serve (perform (max 1 pageSize) call)
  feed := Cursor.feed (Cursor.atOnce fun mark => converseWith serve (fetchPage mark)) decode bound

/-- Over the scripted server this is the store as it is set up. -/
theorem storeOver_serve (pageSize : Nat) :
    storeOver Server.serve pageSize (fun _ server => server.rowsLeft) = store pageSize := rfl

variable {serve}

/-- A statement is executed on a connection, and the talk goes on with the rows. -/
theorem run_execute_bind (statement : Statement) (next : List Row → Talk α) :
    (execute statement >>= next).run = .ask .connect fun reply =>
      match reply with
      | .error message => .done (.error (.backend storeName (connectionReason message)))
      | .ok _ => .ask (.execute statement) fun reply =>
        match reply with
        | .error message => .done (.error (.backend storeName message))
        | .ok rows => (next rows).run := by
  refine congrArg (Dialogue.ask Ask.connect) (funext fun reply => ?_)
  cases reply with
  | error message => rfl
  | ok connection =>
    refine congrArg (Dialogue.ask (Ask.execute statement)) (funext fun reply => ?_)
    cases reply <;> rfl

/-- A talk that begins with a statement and succeeds has got a connection and rows. -/
theorem converse_execute {statement : Statement} {next : List Row → Talk α} {value : α} {s s' : σ}
    (got : converseWith serve (execute statement >>= next) s = (.ok value, s')) :
    ∃ s₁ rows s₂, serve .connect s = (.ok (), s₁) ∧
      serve (.execute statement) s₁ = (.ok rows, s₂) ∧
        converseWith serve (next rows) s₂ = (.ok value, s') := by
  rw [converseWith, run_execute_bind] at got
  rcases connected : serve .connect s with ⟨message | _, s₁⟩
  · simp only [Dialogue.run, connected] at got
    cases got
  rcases served : serve (.execute statement) s₁ with ⟨message | rows, s₂⟩
  · simp only [Dialogue.run, connected, served] at got
    cases got
  simp only [Dialogue.run, connected, served] at got
  exact ⟨s₁, rows, s₂, rfl, served, got⟩

end Serving

/-! ## What is asked of the database -/

/-- An order in which a database sorts texts: it is strict and total, and the empty text comes
first. -/
structure Collates (before : String → String → Bool) : Prop where
  irrefl : ∀ text, before text text = false
  trans : ∀ {text text' text''}, before text text' = true → before text' text'' = true →
    before text text'' = true
  total : ∀ {text text'}, text ≠ text' → before text text' = true ∨ before text' text = true
  least : ∀ {text}, text ≠ "" → before "" text = true

/-- What `SELECT .. WHERE user_id = $1 AND post_id > $2 ORDER BY post_id LIMIT $3` means: the posts
of the user behind an identifier, in order, as many of them as the limit allows. -/
def Selects (before : String → String → Bool) (table : List Post) (user after : String)
    (limit : Int) (page : List Post) : Prop :=
  ∃ sorted : List Post,
    sorted.Perm (table.filter fun post => post.user = user && before after post.id) ∧
      sorted.Pairwise (fun post post' => before post'.id post.id = false) ∧
        page = sorted.take limit.toNat

/-- The key of a post in the table. -/
def keyOf (post : Post) : String × String := (post.user, post.id)

/-- A table as calls fill it: no two posts have the same key, identifiers are not empty, and times
are such as a column can tell. -/
structure Proper (table : List Post) : Prop where
  keys : (table.map keyOf).Nodup
  named : ∀ post ∈ table, post.id ≠ ""
  keepable : ∀ post ∈ table, Keepable post

/-- What a table holds. -/
def heldIn (table : List Post) : Catalogue := fun user id =>
  table.find? fun post => keyOf post = (user, id)

section Contract

variable {σ : Type} (serve : (question : Ask) → σ → question.Reply × σ)

/-- A server selects pages from its table: connecting leaves the table as it is, and what is given
for a page is what the statement means.  Nothing is said about the other statements. -/
structure SelectsPages (before : String → String → Bool) (table : σ → List Post) : Prop where
  collates : Collates before
  connect : ∀ s, table (serve .connect s).2 = table s
  selectPage : ∀ user after limit s rows s',
    serve (.execute (.selectPage user after limit)) s = (.ok rows, s') →
      ∃ page, Selects before (table s) user after limit page ∧ rows = page.map Row.ofPost

end Contract

/-! ## Pages -/

section Pages

variable {table : List Post} {user id : String} {post : Post}

/-- What a table holds under a key is one of its posts and has that key. -/
theorem heldIn_own (found : heldIn table user id = some post) :
    post ∈ table ∧ keyOf post = (user, id) := by
  constructor
  · exact List.mem_of_find?_eq_some found
  · simpa using List.find?_some found

/-- A proper table holds its posts, each under its own key. -/
theorem Proper.heldIn_iff (proper : Proper table) :
    heldIn table user id = some post ↔ post ∈ table ∧ post.user = user ∧ post.id = id := by
  constructor
  · intro found
    obtain ⟨member, key⟩ := heldIn_own found
    exact ⟨member, Prod.mk.inj key⟩
  · rintro ⟨member, rfl, rfl⟩
    cases found : heldIn table post.user post.id with
    | none => exact absurd (decide_eq_true rfl) (List.find?_eq_none.1 found post member)
    | some post' =>
      obtain ⟨member', key⟩ := heldIn_own found
      exact congrArg some (List.inj_on_of_nodup_map proper.keys member' member key)

variable {before : String → String → Bool} {after : String} {limit : Int} {page : List Post}

/-- What is selected before the limit is applied. -/
theorem mem_sorted {sorted : List Post}
    (perm : sorted.Perm (table.filter fun post => post.user = user && before after post.id)) :
    post ∈ sorted ↔ post ∈ table ∧ post.user = user ∧ before after post.id = true := by
  rw [perm.mem_iff, List.mem_filter, Bool.and_eq_true, decide_eq_true_eq]

/-- The identifiers of what is selected ascend strictly, since those of one user's posts differ. -/
theorem sorted_ascending (collates : Collates before) (proper : Proper table) {sorted : List Post}
    (perm : sorted.Perm (table.filter fun post => post.user = user && before after post.id))
    (order : sorted.Pairwise fun post post' => before post'.id post.id = false) :
    sorted.Pairwise fun post post' => before post.id post'.id = true := by
  have keys : (sorted.map keyOf).Nodup :=
    (perm.map keyOf).nodup_iff.2 (proper.keys.sublist (List.filter_sublist.map keyOf))
  have once := Paging.nodup_ids Prod.mk (fun post member => ((mem_sorted perm).1 member).2.1) keys
  have differ := List.pairwise_map.1 once
  refine (order.and differ).imp fun {post post'} both => ?_
  exact (collates.total both.2).resolve_right (by rw [both.1]; exact Bool.false_ne_true)

/-- A page is ascending. -/
theorem Selects.ascending (selects : Selects before table user after limit page)
    (collates : Collates before) (proper : Proper table) :
    page.Pairwise fun post post' => before post.id post'.id = true := by
  obtain ⟨sorted, perm, order, rfl⟩ := selects
  exact (sorted_ascending collates proper perm order).sublist (List.take_sublist _ _)

/-- A page holds posts of the user that are behind the identifier. -/
theorem Selects.own (selects : Selects before table user after limit page) (member : post ∈ page) :
    post ∈ table ∧ post.user = user ∧ before after post.id = true := by
  obtain ⟨sorted, perm, -, rfl⟩ := selects
  exact (mem_sorted perm).1 (List.mem_of_mem_take member)

/-- What is behind the identifier but not in the page is behind all of a full page. -/
theorem Selects.rest (selects : Selects before table user after limit page)
    (collates : Collates before) (proper : Proper table) (member : post ∈ table)
    (own : post.user = user) (behind : before after post.id = true) :
    post ∈ page ∨
      page.length = limit.toNat ∧ ∀ earlier ∈ page, before earlier.id post.id = true := by
  obtain ⟨sorted, perm, order, rfl⟩ := selects
  have ascending := sorted_ascending collates proper perm order
  have here := (mem_sorted perm).2 ⟨member, own, behind⟩
  rw [← List.take_append_drop limit.toNat sorted] at here ascending
  rcases List.mem_append.1 here with taken | left
  · exact .inl taken
  · have more := List.length_pos_of_mem left
    rw [List.length_drop] at more
    have full : (sorted.take limit.toNat).length = limit.toNat := by
      rw [List.length_take]
      omega
    have beyond := (List.pairwise_append.1 ascending).2.2
    exact .inr ⟨full, fun earlier taken => beyond earlier taken post left⟩

/-- The mark behind a page. -/
def Mark.behind (mark : Mark) (page : List Post) : Mark :=
  { mark with after := (page.getLast?.map Post.id).getD mark.after }

/-- What is behind a page is what is behind all of it. -/
theorem Mark.behind_iff (collates : Collates before)
    (ascending : page.Pairwise fun post post' => before post.id post'.id = true) (mark : Mark)
    (nonempty : page ≠ []) :
    before (mark.behind page).after id = true ↔ ∀ post ∈ page, before post.id id = true := by
  obtain ⟨front, last, rfl⟩ := (List.eq_nil_or_concat page).resolve_left nonempty
  rw [List.concat_eq_append] at ascending ⊢
  have after : (mark.behind (front ++ [last])).after = last.id := by simp [Mark.behind]
  rw [after]
  constructor
  · intro beyond post member
    rcases List.mem_append.1 member with earlier | final
    · have less := (List.pairwise_append.1 ascending).2.2 post earlier last List.mem_cons_self
      exact collates.trans less beyond
    · exact List.mem_singleton.1 final ▸ beyond
  · exact fun all => all last (List.mem_append_right front List.mem_cons_self)

variable {σ : Type} {serve : (question : Ask) → σ → question.Reply × σ}

/-- A page that is fetched has been selected, and the listing goes on behind a full page. -/
theorem SelectsPages.fetchPage {tableOf : σ → List Post}
    (selects : SelectsPages serve before tableOf) {mark : Mark} {s s' : σ} {rows : List Row}
    {next : Option Mark} (got : converseWith serve (fetchPage mark) s = (.ok (rows, next), s')) :
    ∃ page, Selects before (tableOf s) mark.user mark.after (limitOf mark.pageSize) page ∧
      rows = page.map Row.ofPost ∧
        next = if page.length < mark.pageSize then none else some (mark.behind page) := by
  obtain ⟨s₁, found, s₂, connected, served, turned⟩ := converse_execute got
  obtain ⟨page, selected, rfl⟩ := selects.selectPage _ _ _ _ _ _ served
  have still : tableOf s₁ = tableOf s := by
    rw [← selects.connect s, connected]
  rw [still] at selected
  refine ⟨page, selected, ?_⟩
  -- the mark behind the page is read from the column of the last row
  rw [List.getLast?_map] at turned
  cases last : page.getLast? with
  | none =>
    rw [last] at turned
    obtain ⟨result, -⟩ := Prod.mk.inj turned
    obtain ⟨rfl, rfl⟩ := Prod.mk.inj (Except.ok.inj result)
    rw [Mark.behind, last, List.length_map]
    exact ⟨rfl, rfl⟩
  | some post =>
    rw [last] at turned
    simp only [Option.map_some, Row.ofPost, text?_textColumn] at turned
    obtain ⟨result, -⟩ := Prod.mk.inj turned
    obtain ⟨rfl, rfl⟩ := Prod.mk.inj (Except.ok.inj result)
    rw [Mark.behind, last, List.length_map]
    exact ⟨rfl, rfl⟩

end Pages

/-! ## Listings -/

/-- A number of rows that fits into 63 bits is a limit as it is. -/
theorem limitOf_eq {pageSize : Nat} (fits : pageSize < 2 ^ 63) : limitOf pageSize = pageSize := by
  unfold limitOf
  rw [Nat.pow_eq]
  apply Int.bmod_eq_of_le_mul_two <;> omega

/-- The marks of a listing with pages of some rows, fewer than would overflow a limit. -/
structure Mark.Fit (user : String) (mark : Mark) : Prop where
  user : mark.user = user
  positive : 0 < mark.pageSize
  fits : mark.pageSize < 2 ^ 63

section Listings

variable {σ : Type} {serve : (question : Ask) → σ → question.Reply × σ}
  {before : String → String → Bool} {tableOf : σ → List Post}

/-- **The pages of the table hold what it holds of the user behind the last identifier seen.** -/
theorem paged (selects : SelectsPages serve before tableOf) (user : String) :
    Paging.Paged (Cursor.atOnce fun mark => converseWith serve (fetchPage mark)) decode user
      (fun s => Proper (tableOf s)) (fun s => heldIn (tableOf s)) (Mark.Fit user)
      fun mark id => before mark.after id = true := by
  constructor
  intro mark s rows next s' fit proper got
  obtain ⟨page, selected, rfl, rfl⟩ := selects.fetchPage (Cursor.atOnce_eq_ok.1 got)
  rw [fit.user] at selected
  have collates := selects.collates
  have ascending := selected.ascending collates proper
  refine ⟨page, ?_, ?_, ?_, ?_, ?_⟩
  · rw [List.map_map]
    refine List.map_congr_left fun post member => ?_
    exact decode_ofPost (proper.keepable post (selected.own member).1)
  · refine List.pairwise_map.2 (ascending.imp fun {post post'} less same => ?_)
    rw [same, collates.irrefl] at less
    cases less
  · intro post member
    obtain ⟨stored, own, behind⟩ := selected.own member
    exact ⟨own, proper.heldIn_iff.2 ⟨stored, own, rfl⟩, behind⟩
  · intro id stored facing
    obtain ⟨post, found⟩ := Option.ne_none_iff_exists'.1 stored
    obtain ⟨member, own, rfl⟩ := proper.heldIn_iff.1 found
    rcases selected.rest collates proper member own facing with here | ⟨full, beyond⟩
    · exact .inl (List.mem_map_of_mem here)
    · rw [limitOf_eq fit.fits, Int.toNat_natCast] at full
      have nonempty : page ≠ [] := List.ne_nil_of_length_pos (full ▸ fit.positive)
      refine .inr ⟨mark.behind page, if_neg (by omega), ?_⟩
      exact (Mark.behind_iff collates ascending mark nonempty).2 beyond
  · intro mark' more
    have full : ¬ page.length < mark.pageSize := by
      intro short
      rw [if_pos short] at more
      cases more
    rw [if_neg full] at more
    obtain rfl := Option.some.inj more
    have nonempty : page ≠ [] := List.ne_nil_of_length_pos (by have := fit.positive; omega)
    refine ⟨⟨fit.user, fit.positive, fit.fits⟩, mt List.map_eq_nil_iff.1 nonempty, ?_⟩
    intro id facing
    have beyond := (Mark.behind_iff collates ascending mark nonempty).1 facing
    -- behind the page is behind its first post, which is behind the mark
    constructor
    · obtain ⟨first, member⟩ := List.exists_mem_of_ne_nil page nonempty
      exact collates.trans (selected.own member).2.2 (beyond first member)
    · intro again
      obtain ⟨post, member, same⟩ := List.mem_map.1 again
      have less := beyond post member
      rw [same, collates.irrefl] at less
      cases less

/-- **A listing of the table is orderly**, whatever statements are executed in between, as long as
the table stays proper and no fetch fails. -/
theorem listing_orderly (selects : SelectsPages serve before tableOf) {pageSize : Nat}
    (fits : pageSize < 2 ^ 63) (bound : Mark → σ → Nat) (user : String) (s : σ) :
    ∃ cursor, (storeOver serve pageSize bound).serve (.readAll user) s = (.ok cursor, s) ∧
      ∀ turns, (∀ s' ∈ ((Paging.Chronicle.start cursor s).run
            (storeOver serve pageSize bound) turns).past, Proper (tableOf s')) →
        ((Paging.Chronicle.start cursor s).run
            (storeOver serve pageSize bound) turns).failed = false →
          ((Paging.Chronicle.start cursor s).run (storeOver serve pageSize bound) turns).Orderly
            (fun s => heldIn (tableOf s)) user := by
  have fit : Mark.Fit user { user := user, pageSize := max 1 pageSize } := by
    constructor
    · rfl
    · exact Nat.lt_of_lt_of_le Nat.zero_lt_one (Nat.le_max_left 1 pageSize)
    · exact Nat.max_lt.2 ⟨by decide, fits⟩
  refine ⟨{ mark := some { user := user, pageSize := max 1 pageSize } }, rfl, ?_⟩
  intro turns proper calm
  -- every identifier of a proper table is behind the empty text, from which the listing goes on
  have all : ∀ id, heldIn (tableOf s) user id ≠ none → before "" id = true := by
    intro id stored
    obtain ⟨post, found⟩ := Option.ne_none_iff_exists'.1 stored
    have begun := proper s (Paging.Chronicle.past_subset_run turns _ List.mem_cons_self)
    obtain ⟨member, -, rfl⟩ := begun.heldIn_iff.1 found
    exact selects.collates.least (begun.named post member)
  exact Paging.Chronicle.orderly_run (paged selects user) rfl fit all turns proper calm

end Listings

end PostStore.Postgres
