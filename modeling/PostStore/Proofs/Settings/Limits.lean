import PostStore.Proofs.Postgres.Paging
import PostStore.Proofs.Redis.SharedDatabase
import PostStore.Proofs.Settings.Loading
/-!
# Settings with which a service can be run

Settings that are accepted hold numbers of up to 64 bits, and more numbers are made of them: the
size in bytes of the map of a document file, the limit of a statement that selects a page, the room
of a pool of connections.  The checks look at none of these.  Here is what becomes of each of them,
and from where on it goes wrong.
-/

namespace PostStore

/-! ## The map of a document file -/

section Map

open Lmdb.Environment

/-- The size of a map is one of 64 bits just if the megabytes are fewer than `2 ^ 44`. -/
theorem mapSize_lt_sizeBound {megabytes : Nat} :
    mapSize megabytes < sizeBound ↔ megabytes < 2 ^ 44 := by
  simp only [mapSize, megabyte, sizeBound, Nat.pow_eq]
  omega

theorem Site.makeFile_eq_excess {megabytes : Nat} {problem? : Option String} {what : Excess} :
    Site.makeFile megabytes problem? = .error (.excess what) ↔
      what = .mapSize ∧ 2 ^ 44 ≤ megabytes := by
  have bound : sizeBound ≤ mapSize megabytes ↔ 2 ^ 44 ≤ megabytes := by
    rw [← Nat.not_lt, mapSize_lt_sizeBound, Nat.not_lt]
  unfold Site.makeFile
  simp only [bound]
  split
  · simp_all [eq_comm]
  · split
    · simp_all [Site.notOpened]
    · split <;> simp_all [Site.notOpened]

/-- Opening a file in a directory asks for too much only if making it does. -/
theorem Site.openIn_excess {make : Option String → Except StoreObstacle Lmdb.Environment}
    {root : Files.Node} {path : String} {what : Excess}
    (tooMuch : (Site.openIn make root path).1 = .error (.excess what)) :
    ∃ problem?, make problem? = .error (.excess what) := by
  unfold Site.openIn at tooMuch
  dsimp only at tooMuch
  split at tooMuch
  · exact nomatch tooMuch
  · split at tooMuch
    · exact nomatch tooMuch
    · split at tooMuch
      · rename_i obstacle made
        obtain rfl : obstacle = .excess what := Except.error.inj tooMuch
        exact ⟨_, made⟩
      · exact nomatch tooMuch

/-- In an empty file system nothing but the making of the file can fail. -/
theorem Site.openIn_empty {make : Option String → Except StoreObstacle Lmdb.Environment}
    {obstacle : StoreObstacle} (failed : make none = .error obstacle) :
    (Site.openIn make (.directory []) "/posts").1 = .error obstacle := by
  obtain ⟨trail, root, led, free⟩ : ∃ trail root,
      (Files.Node.directory []).makeDirectories (Text.utf8 "/posts") = (.ok trail, root) ∧
        Site.filesProblem? trail = none := ⟨_, _, rfl, rfl⟩
  have whole : (Text.utf8 "/posts").contains 0 = false := rfl
  simp only [Site.openIn, whole, Bool.false_eq_true, if_false, led, free, failed]

/-- From `2 ^ 44` megabytes on, and only then, opening a document file asks for too much, unless it
does not get as far. -/
theorem Site.openFile_excess_iff {megabytes : Nat} :
    (∃ root path, (Site.openFile root path megabytes).1 = .error (.excess .mapSize)) ↔
      2 ^ 44 ≤ megabytes := by
  constructor
  · rintro ⟨root, path, tooMuch⟩
    obtain ⟨problem?, made⟩ := Site.openIn_excess tooMuch
    exact (Site.makeFile_eq_excess.1 made).2
  · intro large
    exact ⟨_, _, Site.openIn_empty (Site.makeFile_eq_excess.2 ⟨rfl, large⟩)⟩

end Map

/-! ## The limit of a page -/

namespace Postgres

/-- A number of 64 bits that does not fit into 63 is no limit but a negative number. -/
theorem limitOf_neg {pageSize : Nat} (large : 2 ^ 63 ≤ pageSize) (word : pageSize < 2 ^ 64) :
    limitOf pageSize < 0 := by
  have modulus : (Nat.pow 2 64 : Nat) = 18446744073709551616 := by decide
  unfold limitOf
  rw [modulus, Int.bmod_def]
  split <;> omega

/-! ## Connections -/

/-- An operation on a database: one statement on a connection, and what is made of its rows. -/
def Operation {α : Type} (statement : Statement) (talk : Talk α) : Prop :=
  ∃ result : List Row → Except StoreError α,
    talk = execute statement >>= fun rows => ExceptT.mk (.done (result rows))

section Operations

variable {α : Type} {statement : Statement}

/-- What asks nothing once it has the rows of a statement is an operation. -/
theorem operation_of_quiet (next : List Row → Talk α)
    (quiet : ∀ rows, ∃ result, (next rows).run = .done result) :
    Operation statement (execute statement >>= next) := by
  choose result ended using quiet
  exact ⟨result, congrArg (execute statement >>= ·) (funext ended)⟩

theorem operation_ensureTable : Operation .createTable ensureTable :=
  operation_of_quiet _ fun _ => ⟨_, rfl⟩

theorem operation_single (user id : String) : Operation statement (single user id statement) := by
  refine operation_of_quiet _ fun rows => ?_
  match rows with
  | [] => exact ⟨_, rfl⟩
  | [row] => exact ⟨_, rfl⟩
  | _ :: _ :: _ => exact ⟨_, rfl⟩

/-- A page is selected with the limit that its mark says, and no page changes that. -/
theorem operation_fetchPage (mark : Mark) :
    Operation (.selectPage mark.user mark.after (limitOf mark.pageSize)) (fetchPage mark) := by
  refine operation_of_quiet _ fun rows => ?_
  cases rows.getLast? with
  | none => exact ⟨_, rfl⟩
  | some last =>
    cases found : Column.text? last.id with
    | none => exact ⟨.error (badColumn 1), by simp only [found]; rfl⟩
    | some after => exact ⟨_, by simp only [found]; rfl⟩

/-- Every call but the start of a listing is an operation. -/
theorem operation_perform (pageSize : Nat) {call : Call} (asks : ∀ user, call ≠ .readAll user) :
    ∃ statement, Operation statement (perform pageSize call) := by
  cases call with
  | create user data fresh => exact ⟨_, operation_of_quiet _ fun _ => ⟨_, rfl⟩⟩
  | read user id => exact ⟨_, operation_single user id⟩
  | readAll user => exact absurd rfl (asks user)
  | update user id data clock => exact ⟨_, operation_single user id⟩
  | delete user id => exact ⟨_, operation_of_quiet _ fun _ => ⟨_, rfl⟩⟩

/-- An operation has one statement. -/
theorem Operation.unique {statement' : Statement} {talk : Talk α} (first : Operation statement talk)
    (second : Operation statement' talk) : statement = statement' := by
  obtain ⟨result, rfl⟩ := first
  obtain ⟨result', same⟩ := second
  have onConnection := congrFun (eq_of_heq (Dialogue.ask.inj same).2) (.ok ())
  exact Ask.execute.inj (Dialogue.ask.inj onConnection).1

end Operations

/-! ## Listings -/

/-- The marks to which a listing can come, whatever database answers. -/
inductive Reached (pageSize : Nat) (user : String) : Mark → Prop
  | first {cursor : Rows} {mark : Mark}
      (opened : (perform (max 1 pageSize) (.readAll user)).run = .done (.ok cursor))
      (starts : cursor.mark = some mark) : Reached pageSize user mark
  | next {mark mark' : Mark} {σ : Type} {serve : (question : Ask) → σ → question.Reply × σ}
      {s s' : σ} {rows : List Row} (before : Reached pageSize user mark)
      (fetched : converseWith serve (fetchPage mark) s = (.ok (rows, some mark'), s')) :
      Reached pageSize user mark'

/-- A page leaves the size of pages as it is. -/
theorem pageSize_fetchPage (mark : Mark) :
    (fetchPage mark).run.Ends fun result => ∀ page, result = .ok page →
      ∀ next ∈ page.2, next.pageSize = mark.pageSize := by
  rw [fetchPage, run_execute_bind]
  rintro (message | _)
  · rintro page ⟨⟩
  rintro (message | rows)
  · rintro page ⟨⟩
  dsimp only
  split
  · rintro page given next there
    obtain rfl := Except.ok.inj given
    obtain ⟨-, same⟩ := Option.ite_none_left_eq_some.1 there
    obtain rfl := Option.some.inj same
    rfl
  · split
    · rintro page ⟨⟩
    · rintro page given next there
      obtain rfl := Except.ok.inj given
      obtain ⟨-, same⟩ := Option.ite_none_left_eq_some.1 there
      obtain rfl := Option.some.inj same
      rfl

theorem Reached.pageSize {pageSize : Nat} {user : String} {mark : Mark}
    (reached : Reached pageSize user mark) : mark.pageSize = max 1 pageSize := by
  induction reached with
  | first opened starts =>
    obtain rfl := Except.ok.inj (Dialogue.done.inj opened)
    obtain rfl := Option.some.inj starts
    rfl
  | @next mark mark' σ serve s s' rows before fetched ih =>
    have kept := (pageSize_fetchPage mark).run serve s (rows, some mark')
      (congrArg Prod.fst fetched)
    exact (kept mark' rfl).trans ih

/-! ## Pools -/

/-- A pool of connections: how many it can have, and how many are lent. -/
structure Pool where
  size : Nat
  lent : Nat := 0

variable {σ : Type}

/-- Serves questions through a pool.  While all connections are lent, who asks for one waits. -/
def Pool.serve? (database : (question : Ask) → σ → question.Reply × σ) :
    (question : Ask) → Pool × σ → Option (question.Reply × Pool × σ)
  | .connect, (pool, s) =>
    if pool.lent < pool.size then
      some ((database .connect s).1, { pool with lent := pool.lent + 1 }, (database .connect s).2)
    else none
  | .execute statement, (pool, s) =>
    some ((database (.execute statement) s).1, pool, (database (.execute statement) s).2)

end Postgres

/-- Runs a dialogue against a server that may leave a question without a reply; then the dialogue
waits for ever. -/
def Dialogue.run? {Q : Type} {R : Q → Type} {α σ : Type}
    (serve : (question : Q) → σ → Option (R question × σ)) : Dialogue Q R α → σ → Option (α × σ)
  | done value, state => some (value, state)
  | ask question next, state =>
    match serve question state with
    | some (reply, state) => (next reply).run? serve state
    | none => none

namespace Postgres

/-- An operation waits for ever just if all connections are lent and none is given back. -/
theorem Operation.ends_iff {α σ : Type} {statement : Statement} {talk : Talk α}
    (operation : Operation statement talk) (database : (question : Ask) → σ → question.Reply × σ)
    (pool : Pool) (s : σ) :
    (talk.run.run? (Pool.serve? database) (pool, s)).isSome ↔ pool.lent < pool.size := by
  obtain ⟨result, rfl⟩ := operation
  by_cases room : pool.lent < pool.size
  · refine iff_of_true ?_ room
    rw [run_execute_bind, Dialogue.run?, Pool.serve?, if_pos room]
    simp only
    cases (database .connect s).1 with
    | error message => rfl
    | ok _ =>
      simp only [Dialogue.run?, Pool.serve?]
      cases (database (.execute statement) (database .connect s).2).1 <;> rfl
  · refine iff_of_false ?_ room
    rw [run_execute_bind, Dialogue.run?, Pool.serve?, if_neg room]
    exact Bool.false_ne_true

end Postgres

/-! ## Settings that can be run with -/

open Postgres Wiring

/-- A pool that is asked for can be laid out just if it is not too large. -/
theorem connectStore_layout_iff (settings : StoreSettings) (policy : RetryPolicy) :
    (connectStore { settings with kind := .postgres } policy).Ends
        (· ≠ .error (.excess .poolSize)) ↔
      settings.database.poolSize ≤ Server.largestPool := by
  constructor
  · intro ends
    by_contra large
    have opened := ends (.ok ())
    simp only [Nat.lt_of_not_le large, if_true] at opened
    exact opened rfl
  · intro fits opened
    cases opened with
    | error message => exact nofun
    | ok _ =>
      simp only [Nat.not_lt.2 fits, if_false]
      refine (Dialogue.ends_bind (retried policy tableMade) _).2
        (Dialogue.Ends.of_forall (fun made => ?_) _)
      cases made <;> exact nofun

/-- What is made of the settings is in range: the map of a file is no larger than can be told, every
page is selected with the limit that is asked for, and no operation that has the pool for itself
waits for ever, so that no call does. -/
structure InRange (settings : Settings) : Prop where
  map : ∀ root path,
    (Site.openFile root path settings.store.lmdb.maxMegabytes).1 ≠ .error (.excess .mapSize)
  limit : ∀ user mark, Reached settings.store.database.pageSize user mark →
    ∃ limit : Int, Operation (.selectPage mark.user mark.after limit) (fetchPage mark) ∧
      0 < limit ∧ limit = settings.store.database.pageSize
  pool : ∀ {α σ : Type} (statement : Statement) (talk : Postgres.Talk α), Operation statement talk →
    ∀ (database : (question : Postgres.Ask) → σ → question.Reply × σ) (s : σ),
      (talk.run.run? (Pool.serve? database) (⟨settings.store.database.poolSize, 0⟩, s)).isSome
  calls : ∀ {σ : Type} (call : Call)
    (database : (question : Postgres.Ask) → σ → question.Reply × σ) (s : σ),
      ((perform settings.store.database.pageSize call).run.run? (Pool.serve? database)
        (⟨settings.store.database.poolSize, 0⟩, s)).isSome

/-- What is made of the settings is in range, and the pool that they ask for can be laid out. -/
structure Runnable (settings : Settings) : Prop extends InRange settings where
  layout : ∀ policy, (connectStore { settings.store with kind := .postgres } policy).Ends
    (· ≠ .error (.excess .poolSize))

variable {env : Environment} {settings : Settings}

/-- A number that is loaded is within its bound, if its default is. -/
theorem Reading.number_le {bound default n : Nat} {name : String}
    (loads : (number bound).Loads env name default n) (within : default ≤ bound) : n ≤ bound := by
  cases here : env.text? name with
  | none => exact (loads_of_none here).1 loads ▸ within
  | some raw =>
    obtain ⟨-, -, -, le⟩ := (loads_of_some here).1 loads
    exact le

/-- Pages have at least one row, and as many as can be told with 64 bits. -/
theorem pageSize_of_accepted (accepted : env.settings = .ok settings) :
    0 < settings.store.database.pageSize ∧ settings.store.database.pageSize < 2 ^ 64 := by
  obtain ⟨described, passed⟩ := settings_eq_ok.1 accepted
  constructor
  · unfold Settings.validate at passed
    split_ifs at passed
    exact Nat.pos_of_ne_zero ‹_›
  · simp only [Settings.variables, StoreSettings.variables, DatabaseSettings.variables,
      describes_cons, describes_append, describes_within] at described
    obtain ⟨⟨-, ⟨-, ⟨⟨-, -, -, -, -, -, -, page, -⟩, -⟩, -⟩⟩, -⟩ := described
    exact Nat.lt_succ_of_le (Reading.number_le page (by decide))

/-- The mark with which a listing begins. -/
theorem reached_first (pageSize : Nat) (user : String) :
    Reached pageSize user { user := user, pageSize := max 1 pageSize } := .first rfl rfl

theorem InRange.megabytes (inRange : InRange settings) :
    settings.store.lmdb.maxMegabytes < 2 ^ 44 := by
  by_contra large
  obtain ⟨root, path, tooMuch⟩ := Site.openFile_excess_iff.2 (Nat.le_of_not_lt large)
  exact inRange.map root path tooMuch

theorem InRange.pageSize (inRange : InRange settings) (accepted : env.settings = .ok settings) :
    settings.store.database.pageSize < 2 ^ 63 := by
  obtain ⟨positive, word⟩ := pageSize_of_accepted accepted
  obtain ⟨limit, selects, above, -⟩ := inRange.limit _ _ (reached_first _ "")
  have same := (operation_fetchPage _).unique selects
  simp only [Statement.selectPage.injEq, true_and, Nat.max_eq_right positive] at same
  by_contra large
  have below := limitOf_neg (Nat.le_of_not_lt large) word
  omega

theorem InRange.poolSize (inRange : InRange settings) :
    0 < settings.store.database.poolSize := by
  have ended := inRange.pool _ _ operation_ensureTable Server.serve {}
  exact (operation_ensureTable.ends_iff _ _ _).1 ended

theorem inRange_of_bounds (accepted : env.settings = .ok settings)
    (megabytes : settings.store.lmdb.maxMegabytes < 2 ^ 44)
    (pageSize : settings.store.database.pageSize < 2 ^ 63)
    (pool : 0 < settings.store.database.poolSize) : InRange settings where
  map root path tooMuch := Nat.not_lt.2 (Site.openFile_excess_iff.1 ⟨root, path, tooMuch⟩) megabytes
  limit user mark reached := by
    have positive := (pageSize_of_accepted accepted).1
    have size : mark.pageSize = settings.store.database.pageSize := by
      rw [reached.pageSize, Nat.max_eq_right positive]
    refine ⟨_, operation_fetchPage mark, ?_⟩
    rw [size, limitOf_eq pageSize]
    exact ⟨Int.natCast_pos.2 positive, rfl⟩
  pool statement talk operation database s := (operation.ends_iff database _ s).2 pool
  calls call database s := by
    by_cases listing : ∃ user, call = .readAll user
    · -- a listing asks nothing before its first page
      obtain ⟨user, rfl⟩ := listing
      rfl
    · obtain ⟨_, operation⟩ := operation_perform settings.store.database.pageSize
        fun user same => listing ⟨user, same⟩
      exact (operation.ends_iff database _ s).2 pool

/-- **What is made of accepted settings is in range just if their numbers are within three bounds
that nothing checks**: fewer than `2 ^ 44` megabytes for the document file, pages of fewer than
`2 ^ 63` rows, and room for at least one connection.  They can be run with just if there is no more
room than a pool can be laid out with, too. -/
theorem runnable_iff (accepted : env.settings = .ok settings) :
    (InRange settings ↔ settings.store.lmdb.maxMegabytes < 2 ^ 44 ∧
      settings.store.database.pageSize < 2 ^ 63 ∧ 0 < settings.store.database.poolSize) ∧
    (Runnable settings ↔
      InRange settings ∧ settings.store.database.poolSize ≤ Server.largestPool) := by
  constructor
  · constructor
    · exact fun inRange => ⟨inRange.megabytes, inRange.pageSize accepted, inRange.poolSize⟩
    · rintro ⟨megabytes, pageSize, pool⟩
      exact inRange_of_bounds accepted megabytes pageSize pool
  · constructor
    · intro runnable
      exact ⟨runnable.toInRange, (connectStore_layout_iff _ {}).1 (runnable.layout {})⟩
    · rintro ⟨inRange, fits⟩
      exact ⟨inRange, fun policy => (connectStore_layout_iff _ policy).2 fits⟩

/-! ## At the bounds -/

/-- An environment with one variable. -/
def Environment.single (name value : String) : Environment := fun asked =>
  if asked = Environment.variableName name then some value else none

/-- Settings with so many megabytes for the document file. -/
def Settings.ofMegabytes (megabytes : Nat) : Settings :=
  { store := { lmdb := { maxMegabytes := megabytes } } }

/-- Settings with pages of so many rows. -/
def Settings.ofPageSize (pageSize : Nat) : Settings :=
  { store := { database := { pageSize := pageSize } } }

/-- Settings with room for so many connections. -/
def Settings.ofPoolSize (poolSize : Nat) : Settings :=
  { store := { database := { poolSize := poolSize } } }

/-- The largest pages and the smallest pool that a service can be run with. -/
theorem runnable_iff_extremes :
    ((Environment.single "DB_PAGE_SIZE" "9223372036854775807").settings =
        .ok (.ofPageSize 9223372036854775807) ∧ Runnable (.ofPageSize 9223372036854775807)) ∧
    ((Environment.single "DB_POOL_SIZE" "1").settings = .ok (.ofPoolSize 1) ∧
      Runnable (.ofPoolSize 1)) := by
  have pages : (Environment.single "DB_PAGE_SIZE" "9223372036854775807").settings =
      .ok (.ofPageSize 9223372036854775807) := rfl
  have pool : (Environment.single "DB_POOL_SIZE" "1").settings = .ok (.ofPoolSize 1) := rfl
  have paged := (runnable_iff pages).1.2 (by decide)
  have pooled := (runnable_iff pool).1.2 (by decide)
  exact ⟨⟨pages, (runnable_iff pages).2.2 ⟨paged, by decide⟩⟩,
    ⟨pool, (runnable_iff pool).2.2 ⟨pooled, by decide⟩⟩⟩

/-- Three environments that are accepted.  With `2 ^ 44` megabytes opening the file asks for too
much, with pages of `2 ^ 63` rows a listing begins with a negative limit, and without room in the
pool the first operation waits for ever. -/
theorem accepted_not_runnable :
    ((Environment.single "LMDB_MAX_SIZE_MB" "17592186044416").settings =
        .ok (.ofMegabytes 17592186044416) ∧
      (Site.openFile (.directory []) "/posts" 17592186044416).1 = .error (.excess .mapSize)) ∧
    ((Environment.single "DB_PAGE_SIZE" "9223372036854775808").settings =
        .ok (.ofPageSize 9223372036854775808) ∧
      ∀ user, Operation (.selectPage user "" (-9223372036854775808))
        (fetchPage { user := user, pageSize := 9223372036854775808 })) ∧
    ((Environment.single "DB_POOL_SIZE" "0").settings = .ok (.ofPoolSize 0) ∧
      (ensureTable.run.run? (Pool.serve? Server.serve) (⟨0, 0⟩, {})) = none) := by
  refine ⟨⟨rfl, ?_⟩, ⟨rfl, fun user => ?_⟩, ⟨rfl, rfl⟩⟩
  · exact Site.openIn_empty (Site.makeFile_eq_excess.2 ⟨rfl, by decide⟩)
  · have negative : limitOf 9223372036854775808 = -9223372036854775808 := by decide
    rw [← negative]
    exact operation_fetchPage { user := user, pageSize := 9223372036854775808 }

end PostStore
