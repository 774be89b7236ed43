import Mathlib.Data.List.Perm.Subperm
import PostStore.Proofs.Agreement
import PostStore.Proofs.Redis.Scanning
/-!
# The plain server acts as it should

As long as no replies are queued, each field of a hash is there once and a cursor can tell every
field, the commands act as on a map of hashes and scans are complete.  A call files at most one
field, so a server that begins empty stays in order for any run that is not absurdly long.
-/

namespace PostStore.Redis

namespace Server

/-- No replies are queued, and every hash has each field once and not more fields than `limit`. -/
structure InOrder (limit : Nat) (server : Server) : Prop where
  calm : server.queued = []
  once : ∀ key, (server.fields key).Functional
  few : ∀ key, (server.fields key).length ≤ limit

/-- The last cursor that can be told. -/
def lastCursor : Nat := Nat.pow 2 64 - 1

/-- What is under a field of a hash. -/
def value (server : Server) (key field : String) : Option Bytes := (server.fields key).get? field

theorem inOrder_empty : InOrder 0 {} :=
  ⟨rfl, fun _ => List.nodup_nil, fun _ => Nat.le_refl 0⟩

theorem InOrder.mono {limit limit' : Nat} {server : Server} (order : server.InOrder limit)
    (le : limit ≤ limit') : server.InOrder limit' :=
  ⟨order.calm, order.once, fun key => Nat.le_trans (order.few key) le⟩

/-! ## One command -/

variable {server : Server} {limit : Nat}

/-- The server with one more command received. -/
def log (command : Command) (server : Server) : Server :=
  { server with received := command :: server.received }

theorem serve_of_calm (calm : server.queued = []) (command : Command) :
    serve command server = (server.log command).execute command := by
  rw [serve, log, calm]

theorem fields_setFields (key key' : String) (fields : Fields) :
    (server.setFields key fields).fields key' =
      if key = key' then fields else server.fields key' := by
  unfold setFields Server.fields
  rw [Bindings.get?_put]
  split <;> rfl

/-- Only the fields of one hash change. -/
theorem InOrder.setFields (order : server.InOrder limit) (key : String) {fields : Fields}
    {limit' : Nat} (le : limit ≤ limit') (once : fields.Functional) (few : fields.length ≤ limit') :
    (server.setFields key fields).InOrder limit' where
  calm := order.calm
  once key' := by
    rw [fields_setFields]
    split
    · exact once
    · exact order.once key'
  few key' := by
    rw [fields_setFields]
    split
    · exact few
    · exact Nat.le_trans (order.few key') le

theorem length_put_le (fields : Fields) (field : String) (value : Bytes) :
    (fields.put field value).length ≤ fields.length + 1 := by
  have names := congrArg List.length (Bindings.map_fst_put field value fields)
  rw [List.length_map] at names
  rw [names]
  split
  · rw [List.length_map]
    exact Nat.le_succ _
  · rw [List.length_append, List.length_map]
    exact Nat.le_refl _

theorem serve_hget (order : server.InOrder limit) (key field : String) :
    serve (.hget key field) server =
      ((server.value key field).elim .nil .bulk, server.log (.hget key field)) := by
  have same : ((server.log (.hget key field)).fields key).get? field = server.value key field := rfl
  rw [serve_of_calm order.calm, execute, same]
  cases server.value key field <;> rfl

theorem serve_hset (order : server.InOrder limit) (key field : String) (value : Bytes) :
    ∃ n, serve (.hset key field value) server =
      (.int n, (server.log (.hset key field value)).setFields key
        ((server.fields key).put field value)) := by
  rw [serve_of_calm order.calm, execute]
  exact ⟨_, rfl⟩

theorem serve_hdel (order : server.InOrder limit) (key field : String) :
    ∃ n server', serve (.hdel key field) server = (.int n, server') ∧ server'.InOrder limit ∧
      server'.value = fun k f => if k = key ∧ f = field then none else server.value k f := by
  rw [serve_of_calm order.calm, execute]
  have same : (server.log (.hdel key field)).fields key = server.fields key := rfl
  have logged : (server.log (.hdel key field)).InOrder limit := ⟨order.calm, order.once, order.few⟩
  rw [same]
  cases found : (server.fields key).get? field with
  | none =>
    refine ⟨0, _, rfl, logged, ?_⟩
    funext k f
    split
    · rename_i here
      obtain ⟨rfl, rfl⟩ := here
      exact found
    · rfl
  | some value =>
    have fewer : ((server.fields key).erase field).length ≤ limit :=
      Nat.le_trans (List.length_filter_le _ _) (order.few key)
    have once := (order.once key).erase field
    refine ⟨1, _, rfl, logged.setFields key (Nat.le_refl limit) once fewer, ?_⟩
    funext k f
    rw [Server.value, fields_setFields]
    split
    · rename_i here
      subst here
      rw [Bindings.get?_erase]
      simp only [eq_comm, true_and]
      rfl
    · rename_i other
      simp only [Ne.symm other, false_and, if_false]
      rfl

/-- After a lookup or a scan everything is as before, but for the log. -/
theorem serve_hscan (order : server.InOrder limit) (key : String) (cursor count : Nat) :
    serve (.hscan key cursor count) server =
      (scanReply (server.fields key) cursor count, server.log (.hscan key cursor count)) := by
  rw [serve_of_calm order.calm, execute]
  rfl

theorem InOrder.log (order : server.InOrder limit) (command : Command) :
    (server.log command).InOrder limit :=
  ⟨order.calm, order.once, order.few⟩

/-! ## Scans -/

/-- A scan replies with as many fields as it is asked for and the cursor behind them, -/
theorem scanReply_more {fields : Fields} {cursor count : Nat}
    (more : cursor + count < fields.length) :
    scanReply fields cursor count =
      batchReply (cursor + count) ((fields.drop cursor).take count) := by
  have width : ((fields.drop cursor).take count).length = count := by
    rw [List.length_take, List.length_drop]
    omega
  simp only [scanReply, batchReply, width, if_pos more]

/-- or with all that are left. -/
theorem scanReply_last {fields : Fields} {cursor count : Nat}
    (rest : ¬ cursor + count < fields.length) :
    scanReply fields cursor count = batchReply 0 (fields.drop cursor) := by
  have whole : (fields.drop cursor).take count = fields.drop cursor := by
    refine List.take_of_length_le ?_
    rw [List.length_drop]
    omega
  have stop : ¬ cursor + (fields.drop cursor).length < fields.length := by
    rw [List.length_drop]
    omega
  simp only [scanReply, batchReply, whole, if_neg stop]

/-- From any cursor on a scan finds what comes behind it, and ends. -/
theorem scans_from (key : String) {count : Nat} (positive : 0 < count) (left : Nat) :
    ∀ (server : Server) (cursor : Nat), server.InOrder lastCursor →
      (server.fields key).length - cursor ≤ left →
      ∃ final steps, Scans serve scanBound key count cursor server ((server.fields key).drop cursor)
          final steps ∧
        steps ≤ (server.fields key).length - cursor + 1 ∧ final.hashes = server.hashes := by
  -- on how many fields are behind the cursor: a batch that is not the last takes `count` of them
  induction left with
  | zero =>
    intro server cursor order behind
    have served := serve_hscan order key cursor count
    rw [scanReply_last (by omega)] at served
    exact ⟨_, 1, .last served (by unfold scanBound; omega), by omega, rfl⟩
  | succ left ih =>
    intro server cursor order behind
    have served := serve_hscan order key cursor count
    have few := order.few key
    by_cases more : cursor + count < (server.fields key).length
    · rw [scanReply_more more] at served
      have word : cursor + count < Nat.pow 2 64 := by
        unfold lastCursor at few
        omega
      obtain ⟨final, steps, scans, bounded, same⟩ :=
        ih (server.log (.hscan key cursor count)) (cursor + count) (order.log _) (by
          show (server.fields key).length - (cursor + count) ≤ left
          omega)
      change steps ≤ (server.fields key).length - (cursor + count) + 1 at bounded
      have split : (server.fields key).drop cursor =
          ((server.fields key).drop cursor).take count ++
            (server.fields key).drop (cursor + count) := by
        rw [← List.drop_drop, List.take_append_drop]
      rw [split]
      refine ⟨final, steps + 1, .more served (by omega) word ?_ scans, by omega, same⟩
      unfold scanBound
      omega
    · -- the rest fits into one batch
      rw [scanReply_last more] at served
      exact ⟨_, 1, .last served (by unfold scanBound; omega), by omega, rfl⟩

/-- A batch is understood as its cursor and the texts in it, or not at all. -/
theorem scanned_batchReply {next cursor : Nat} {batch : Fields} {flat : List String}
    (understood : (batchReply next batch).scanned = .ok (cursor, flat)) :
    cursor = next ∧ (batch = [] → flat = []) := by
  rw [Reply.scanned, checked_batchReply] at understood
  have parts : (batchReply next batch).toScan = .ok (cursor, flat) := understood
  obtain ⟨number, read, rest⟩ := bind_eq_ok.1 parts
  obtain ⟨texts, items, same⟩ := bind_eq_ok.1 rest
  obtain ⟨rfl, rfl⟩ := Prod.mk.inj (Except.ok.inj same)
  constructor
  · simp only [Reply.toUnsigned, Text.ofUtf8?_utf8] at read
    split at read
    · rename_i value found
      obtain rfl := Except.ok.inj read
      exact Text.eq_of_readUnsigned_toString found
    · cases read
  · rintro rfl
    exact (Except.ok.inj items).symm

/-- A scan of the plain server gives the fields behind the cursor, and the cursor behind those, or
zero when there are no more. -/
theorem scanned_scanReply {fields : Fields} {position count cursor : Nat} {flat : List String}
    (understood : (scanReply fields position count).scanned = .ok (cursor, flat))
    (goesOn : cursor ≠ 0) :
    cursor = position + count ∧ position + count < fields.length ∧ (count = 0 → flat = []) := by
  by_cases more : position + count < fields.length
  · rw [scanReply_more more] at understood
    obtain ⟨rfl, empty⟩ := scanned_batchReply understood
    exact ⟨rfl, more, fun none => empty (by rw [none, List.take_zero])⟩
  · rw [scanReply_last more] at understood
    exact absurd (scanned_batchReply understood).1 goesOn

/-- When no replies wait, a part of the hash is replied and nothing changes. -/
theorem scanned_of_calm {mark : Mark} {server after : Server} {reply : Reply}
    (served : serve (.hscan mark.key mark.cursor mark.count) server = (reply, after))
    (calm : server.queued = []) :
    scanReply (server.fields mark.key) mark.cursor mark.count = reply ∧
      server.log (.hscan mark.key mark.cursor mark.count) = after := by
  rw [serve_of_calm calm] at served
  exact Prod.mk.inj served

/-- When no replies wait, a scan that comes to an end takes a command for each field behind the
cursor and one more at most.  One for no fields at a time does not come to an end unless its first
reply is the last. -/
theorem replies_le_of_calm {mark : Mark} {server server' : Server} {replies : Nat}
    {result : Except (Cursor.Fault String) (Cursor.Page Mark String)}
    (scanned : Scanned serve mark server replies result server') (calm : server.queued = []) :
    replies ≤ (server.fields mark.key).length - mark.cursor + 1 ∧
      (mark.count = 0 → ∀ cursor flat,
        (scanReply (server.fields mark.key) mark.cursor 0).scanned = .ok (cursor, flat) →
          cursor = 0) := by
  induction scanned with
  | @failed mark server _ reply problem served bad =>
    obtain ⟨rfl, -⟩ := scanned_of_calm served calm
    refine ⟨by omega, fun none cursor flat understood => ?_⟩
    rw [none, understood] at bad
    cases bad
  | @last mark server _ reply flat served understood =>
    obtain ⟨rfl, -⟩ := scanned_of_calm served calm
    refine ⟨by omega, fun none cursor flat' understood' => ?_⟩
    rw [none, understood'] at understood
    exact (Prod.mk.inj (Except.ok.inj understood)).1
  | @found mark server _ reply cursor flat served understood goesOn new =>
    obtain ⟨rfl, -⟩ := scanned_of_calm served calm
    refine ⟨by omega, fun none => ?_⟩
    rw [(scanned_scanReply understood goesOn).2.2 none] at new
    exact absurd rfl new
  | @further mark server after _ reply cursor replies flat result served understood goesOn nothing
      others ih =>
    obtain ⟨rfl, rfl⟩ := scanned_of_calm served calm
    obtain ⟨rfl, more, -⟩ := scanned_scanReply understood goesOn
    obtain ⟨few, stuck⟩ := ih calm
    change replies ≤ (server.fields mark.key).length - (mark.cursor + mark.count) + 1 at few
    have some : mark.count ≠ 0 := by
      intro none
      rw [none] at understood goesOn
      refine goesOn (stuck none _ flat ?_)
      rw [none]
      exact understood
    exact ⟨by omega, fun none => absurd none some⟩

/-- Before that it takes a command for each reply that waits at most. -/
theorem replies_le_of_scanned {mark : Mark} {server server' : Server} {replies : Nat}
    {result : Except (Cursor.Fault String) (Cursor.Page Mark String)}
    (scanned : Scanned serve mark server replies result server') :
    replies ≤ server.queued.length + (server.fields mark.key).length + 1 := by
  induction scanned with
  | failed | last | found => omega
  | @further mark server after _ reply cursor replies flat result served understood goesOn nothing
      others ih =>
    cases waiting : server.queued with
    | nil =>
      have again := Scanned.further served understood goesOn nothing others
      have whole := (replies_le_of_calm again waiting).1
      rw [List.length_nil]
      omega
    | cons first later =>
      rw [serve_waiting mark waiting] at served
      obtain rfl := congrArg Prod.snd served
      change replies ≤ later.length + (server.fields mark.key).length + 1 at ih
      rw [List.length_cons]
      omega

/-- **The plain server lets a fetch send as many commands as any scan takes**, whatever replies
wait. -/
theorem scanBound_suffices : Suffices serve scanBound := by
  intro mark server replies result server' scanned
  have few := length_le_weights server.queued
  have bounded := replies_le_of_scanned scanned
  unfold scanBound
  omega

/-- A reply to a scan ends it, or leads on with nothing new. -/
theorem exists_scanned {mark : Mark} {server after : Server} {reply : Reply}
    (served : serve (.hscan mark.key mark.cursor mark.count) server = (reply, after))
    (onward : ∀ cursor flat, reply.scanned = .ok (cursor, flat) → cursor ≠ 0 →
      ∃ result final, Answers serve
        { mark with cursor := cursor, seen := (unseen mark.seen flat).2 } after result final) :
    ∃ result final, Answers serve mark server result final := by
  cases understood : reply.scanned with
  | error problem => exact ⟨_, _, _, .failed served understood⟩
  | ok part =>
    obtain ⟨cursor, flat⟩ := part
    by_cases last : cursor = 0
    · subst last
      exact ⟨_, _, _, .last served understood⟩
    · by_cases nothing : (unseen mark.seen flat).1 = []
      · obtain ⟨result, final, replies, others⟩ := onward cursor flat understood last
        exact ⟨_, _, _, .further served understood last nothing others⟩
      · exact ⟨_, _, _, .found served understood last nothing⟩

theorem exists_answers_of_calm (left : Nat) : ∀ {mark : Mark} {server : Server},
    0 < mark.count → server.queued = [] → (server.fields mark.key).length - mark.cursor ≤ left →
      ∃ result final, Answers serve mark server result final := by
  -- on how many fields are behind the cursor
  induction left with
  | zero =>
    intro mark server positive calm behind
    refine exists_scanned (serve_of_calm calm _) fun cursor flat understood goesOn => ?_
    have more : mark.cursor + mark.count < (server.fields mark.key).length :=
      (scanned_scanReply understood goesOn).2.1
    omega
  | succ left ih =>
    intro mark server positive calm behind
    refine exists_scanned (serve_of_calm calm _) fun cursor flat understood goesOn => ?_
    obtain ⟨rfl, more, -⟩ := scanned_scanReply understood goesOn
    refine ih positive calm ?_
    show (server.fields mark.key).length - (mark.cursor + mark.count) ≤ left
    omega

/-- **Every scan of the plain server for some fields at a time comes to an end**, whatever replies
wait. -/
theorem exists_answers (waiting : List Reply) : ∀ {mark : Mark} {server : Server},
    0 < mark.count → server.queued = waiting →
      ∃ result final, Answers serve mark server result final := by
  induction waiting with
  | nil => exact fun positive calm => exists_answers_of_calm _ positive calm (Nat.le_refl _)
  | cons reply waiting ih =>
    intro mark server positive queued
    exact exists_scanned (serve_waiting mark queued) fun cursor flat _ _ => ih positive rfl

/-- So a page is fetched exactly as the plain server answers. -/
theorem answers_iff {mark : Mark} (positive : 0 < mark.count) {server final : Server}
    {result : Except (Cursor.Fault String) (Cursor.Page Mark String)} :
    Answers serve mark server result final ↔ fetchPlain mark server = (result, final) := by
  have heeded : ∀ {result final}, Answers serve mark server result final →
      fetchPlain mark server = (result, final) := by
    rintro result final ⟨replies, scanned⟩
    exact scanned.heeded (scanBound_suffices mark server replies result final scanned)
  refine ⟨heeded, fun fetched => ?_⟩
  obtain ⟨result', final', answers⟩ := exists_answers server.queued positive rfl
  obtain ⟨rfl, rfl⟩ := Prod.mk.inj ((heeded answers).symm.trans fetched)
  exact answers

/-- **The plain server acts as on a map of hashes.** -/
theorem actsAsHashes : ActsAsHashes serve scanBound (InOrder lastCursor) value where
  hget key field server order := by
    rw [serve_hget order]
    exact ⟨rfl, order.log _, rfl⟩
  hset key field value server order := by
    obtain ⟨n, served⟩ := serve_hset order key field value
    rw [served]
    refine ⟨⟨n, rfl⟩, ?_⟩
    funext k f
    rw [Server.value, fields_setFields]
    split
    · rename_i here
      subst here
      rw [Bindings.get?_put]
      simp only [eq_comm, true_and]
      rfl
    · rename_i other
      simp only [Ne.symm other, false_and, if_false]
      rfl
  hdel key field server order := by
    obtain ⟨n, server', served, _, after⟩ := serve_hdel order key field
    rw [served]
    exact ⟨⟨n, rfl⟩, after⟩
  hscan key count server order positive := by
    obtain ⟨final, steps, scans, _, same⟩ :=
      scans_from key positive _ server 0 order (Nat.le_refl _)
    refine ⟨server.fields key, final, steps, scans, ?_, fun field value => ?_⟩
    · funext k f
      rw [Server.value, Server.value, Server.fields, same]
      rfl
    · exact (order.once key).mem_iff
  fields key server names order distinct present := by
    have inside : ∀ field ∈ names, field ∈ (server.fields key).map Prod.fst := by
      intro field member
      obtain ⟨value, found⟩ := Option.ne_none_iff_exists'.1 (present field member)
      exact List.mem_map.2 ⟨_, (order.once key).mem_iff.2 found, rfl⟩
    have few := (distinct.subperm inside).length_le
    rw [List.length_map] at few
    unfold scanBound
    omega

/-! ## Runs -/

/-- A lookup takes one command, whatever the reply. -/
theorem converse_find_state (setup : StoreSetup) (user id : String) (server : Server) :
    (converseWith serve (find setup user id) server).2 =
      (serve (.hget (setup.userKey user) id) server).2 := by
  rw [find, converse_send_eq]
  split
  · rename_i reply _
    cases understood : reply.toText? with
    | error problem => rfl
    | ok found => cases found <;> rfl
  · rfl

/-- Filing a post takes one command. -/
theorem converse_file_state (setup : StoreSetup) (post : Post) (server : Server) :
    (converseWith serve (file setup post) server).2 =
      (serve (.hset (setup.userKey post.user) post.id post.toDocument) server).2 := by
  rw [file, converse_send_eq]
  split <;> rfl

/-- Filing a field adds at most one. -/
theorem InOrder.hset (order : server.InOrder limit) (key field : String) (value : Bytes) :
    (serve (.hset key field value) server).2.InOrder (limit + 1) := by
  obtain ⟨n, served⟩ := serve_hset order key field value
  have longer := length_put_le (server.fields key) field value
  have few := order.few key
  rw [served]
  have once := (order.once key).put field value
  exact (order.log _).setFields key (Nat.le_succ limit) once (by omega)

/-- A page of a listing changes nothing, whatever the replies. -/
theorem InOrder.fill (rounds : Nat) :
    ∀ {server : Server} (mark : Mark), server.InOrder limit →
      (converseWith serve (fill rounds mark) server).2.InOrder limit := by
  induction rounds with
  | zero => exact fun _ order => order
  | succ rounds ih =>
    intro server mark order
    have order' : (serve (.hscan mark.key mark.cursor mark.count) server).2.InOrder limit := by
      rw [serve_hscan order]
      exact order.log _
    rw [Redis.fill, converse_send_eq]
    split
    · rename_i reply _
      rw [converse_bind]
      cases understood : reply.toScan with
      | error problem => exact order'
      | ok scan =>
        obtain ⟨cursor, flat⟩ := scan
        rw [understand]
        show InOrder limit (converseWith serve (if cursor = 0 then _ else if _ then _ else _) _).2
        split
        · exact order'
        · split
          · exact ih _ order'
          · exact order'
    · exact order'

/-- A call files at most one field. -/
theorem InOrder.complete (order : server.InOrder limit) (setup : StoreSetup) (call : Call) :
    ((storeOver serve setup scanBound).complete call server).2.InOrder (limit + 1) := by
  cases call with
  | create user data fresh =>
    show (converseWith serve (file setup (Post.make user data fresh)) server).2.InOrder _
    rw [converse_file_state]
    exact order.hset _ _ _
  | read user id =>
    show (converseWith serve (find setup user id) server).2.InOrder _
    rw [converse_find_state, serve_hget order]
    exact (order.log _).mono (Nat.le_succ limit)
  | readAll user =>
    have kept : ((storeOver serve setup scanBound).feed.collect
        { mark := some { key := setup.userKey user, count := setup.scanCount } } server).2.2.InOrder
          limit := by
      refine Feed.collect_keeps (InOrder limit) (fun cursor _ good => ?_) _ order
      have advance : (storeOver serve setup scanBound).feed.next =
          Cursor.next (Cursor.atOnce fun mark server =>
            converseWith serve (Redis.fill (server.scanBound mark.key) mark) server) := rfl
      rw [advance]
      refine Cursor.next_atOnce_keeps (InOrder limit) (fun mark server _ _ good got => ?_) cursor
        good
      have filled := InOrder.fill (server.scanBound mark.key) mark good
      rw [got] at filled
      exact filled
    exact kept.mono (Nat.le_succ limit)
  | update user id data clock =>
    have looked : (converseWith serve (find setup user id) server).2.InOrder limit := by
      rw [converse_find_state, serve_hget order]
      exact order.log _
    show (converseWith serve (modify setup user id data clock) server).2.InOrder _
    rw [modify, converse_bind]
    split
    · rename_i post _
      cases post.withData? data clock with
      | none => exact looked.mono (Nat.le_succ limit)
      | some changed =>
        simp only
        rw [converse_file_state]
        exact looked.hset _ _ _
    · exact looked.mono (Nat.le_succ limit)
  | delete user id =>
    obtain ⟨n, server', served, order', _⟩ := serve_hdel order (setup.userKey user) id
    have removed : (converseWith serve (remove setup user id) server).2 =
        (serve (.hdel (setup.userKey user) id) server).2 := by
      rw [remove, converse_send_eq]
      split <;> rfl
    show (converseWith serve (remove setup user id) server).2.InOrder _
    rw [removed, served]
    exact order'.mono (Nat.le_succ limit)

/-- The server is in order whenever a call is made, as long as a cursor can tell every field that
the calls may file. -/
theorem within_inOrder (setup : StoreSetup) (calls : List Call) :
    ∀ {server : Server} {limit : Nat}, server.InOrder limit → limit + calls.length ≤ lastCursor →
      (storeOver serve setup scanBound).Within (fun _ server => server.InOrder lastCursor) calls
        server := by
  induction calls with
  | nil => exact fun _ _ => trivial
  | cons call calls ih =>
    intro server limit order few
    rw [List.length_cons] at few
    exact ⟨order.mono (by omega), ih (order.complete setup call) (by omega)⟩

end Server

end PostStore.Redis
