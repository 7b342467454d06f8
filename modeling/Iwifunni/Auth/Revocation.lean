/-
Iwifunni/Auth/Revocation.lean

The life of an API key, with any number of requests going on at once.

    INSERT ───── looked up, compared, touched ... ───── DELETE
           ▲                                      ▲
      from here on it serves              from here on it does not,
                                    but for what had looked it up before

A request that is let through acts in the environment its key was issued for
(`served_issued`).  Ids are drawn once, so a key that was deleted does not come back, and
after the DELETE only requests that had looked the key up are let through
(`looked_up_before`).  Only its own environment can delete it (`deleted_by_own`), and until
it does, the key serves (`serves_until_deleted`).
-/
import Iwifunni.Auth.ApiKeys
import Mathlib.Data.List.Nodup

namespace Iwifunni.Auth.ApiKeys

open Go Db Effect Effect.Prog

section Runs

variable {compare : String → String → Bool}

/-- What can happen, from an empty table on. -/
abbrev Reached (compare : String → String → Bool)
    (evs : List (Event Request Empty Op.Res GoError Result))
    (s : Pool (List ApiKey) Request Op.Res GoError Result) : Prop :=
  Run (keys compare) (fun _ _ => True) idle evs s

variable {evs : List (Event Request Empty Op.Res GoError Result)}
variable {s s' : Pool (List ApiKey) Request Op.Res GoError Result}

/-- A key that was asked for, with what was drawn for it. -/
def Issued (compare : String → String → Bool)
    (evs : List (Event Request Empty Op.Res GoError Result)) (d : Issue) : Prop :=
  (∃ i, .start i (.create d) ∈ evs) ∧ (Request.create d).Drawn compare

/-- The world of a pool is that of the step before, or a statement changed it. -/
theorem world_of_step {e} (h : Step (keys compare) s e s') :
    s'.world = s.world ∨ ∃ i l tr op k r, s.threads i = some ⟨l, tr, .call op k⟩ ∧
      e = .call i ⟨op, r⟩ ∧ Call op s.world r s'.world := by
  cases h with
  | start _ hspawn => exact Or.inl hspawn.1
  | call ht hsem => exact Or.inr ⟨_, _, _, _, _, _, ht, rfl, hsem⟩
  | finish _ hclose => exact Or.inl hclose
  | lose _ hlose => exact Or.inl hlose
  | @env w w' ts ev he => exact ev.elim

theorem issued_mono (evs' : List (Event Request Empty Op.Res GoError Result)) {d : Issue}
    (h : Issued compare evs d) : Issued compare (evs ++ evs') d :=
  ⟨h.1.imp fun _ hi => List.mem_append_left _ hi, h.2⟩

/-- A statement about to be made is one of its request, and the request came in. -/
theorem about_to (h : Reached compare evs s) {i l tr op k}
    (ht : s.threads i = some ⟨l, tr, .call op k⟩) :
    l.Makes op ∧ .start i l ∈ evs ∧ l.Drawn compare ∧
      After (l.program compare) tr (.call op k) := by
  have hafter := h.after_of_idle (fun _ => rfl) ht
  have hstart := h.started_of_idle (fun _ => rfl) ht
  obtain ⟨w, w', hspawn⟩ := h.spawned hstart
  exact ⟨((calls_program l).after hafter).1, hstart, hspawn.2, hafter⟩

/-- A key about to be inserted was asked for, and nothing is inserted but what was drawn. -/
theorem issued_of_create (h : Reached compare evs s) {i l tr arg k}
    (ht : s.threads i = some ⟨l, tr, .call (.createAPIKey arg) k⟩) :
    ∃ d p, l = .create d ∧ Issued compare evs d ∧ apiKeyPrefix d.rawKey = some p ∧
      arg = d.row p ∧ tr = [] := by
  obtain ⟨hmakes, hstart, hdrawn, hafter⟩ := about_to h ht
  cases l with
  | create d =>
      obtain ⟨p, hp, hop⟩ := hmakes
      cases hop
      exact ⟨d, p, rfl, ⟨⟨i, hstart⟩, hdrawn⟩, hp, rfl, nil_of_create hafter⟩
  | list e => cases hmakes
  | delete e id => rcases hmakes with h | h <;> cases h
  | api r => exact hmakes.elim

/-- **Every row is a key that was issued**, used since or not. -/
theorem rows_issued (h : Reached compare evs s) :
    ∀ row ∈ s.world, ∃ d p, Issued compare evs d ∧ apiKeyPrefix d.rawKey = some p ∧
      (d.row p).Used row := by
  induction h with
  | nil => exact fun row hrow => by cases hrow
  | @snoc evs p e p' hrun _ hs ih =>
      intro row hrow
      rcases world_of_step hs with hw | ⟨i, l, tr, op, k, r, ht, rfl, hcall⟩
      · rw [hw] at hrow
        obtain ⟨d, q, hd, hrest⟩ := ih row hrow
        exact ⟨d, q, issued_mono _ hd, hrest⟩
      · rcases hcall.mem hrow with rfl | ⟨old, hold, hused⟩
        · obtain ⟨d, q, -, hd, hq, rfl, -⟩ := issued_of_create hrun ht
          exact ⟨d, q, issued_mono _ hd, hq, .refl _⟩
        · obtain ⟨d, q, hd, hq, hrow⟩ := ih old hold
          exact ⟨d, q, issued_mono _ hd, hq, hrow.trans hused⟩

/-- What a request found was there when it looked. -/
theorem found_of_served (h : Reached compare evs s) {i t auth}
    (ht : s.threads i = some t)
    (hs : Step (keys compare) s (.finish i (.ok (.reply (.served auth)))) s') :
    ∃ r p row scopes, t.label = .api r ∧ apiKeyPrefix (keyOf r.header) = some p ∧
      ⟨.getAPIKeyByPrefix p, .ok row⟩ ∈ t.log ∧
      check compare (keyOf r.header) r.now row = .ok scopes ∧
      auth = ⟨row.environmentID, row.id, row.name, scopes, row.status⟩ := by
  have hafter := h.after_of_idle (fun _ => rfl) ht
  cases hs with
  | @finish w w' ts i l tr out ht' _ =>
      cases ht'.symm.trans ht
      change After (l.program compare) tr (ofExcept (.ok (.reply (.served auth)))) at hafter
      have hpath := hafter.path
      obtain ⟨r, rfl⟩ := api_of_reply hpath
      obtain ⟨reply, tr₁, tr₂, rfl, hp, hret⟩ := path_bind_ok hpath
      obtain ⟨rfl, hreply⟩ := path_ret hret
      cases hreply
      obtain ⟨p, row, scopes, hp, hlog, hrest⟩ := path_served hp
      exact ⟨r, p, row, scopes, rfl, hp, List.mem_append_left _ hlog, hrest⟩

/-! A key is made, and deleted while a request with it is on its way. -/

section Overlap

variable {d : Issue} {r : ApiRequest}

/-- The checks pass for the row of a generated key. -/
theorem check_row (hd : (Request.create d).Drawn compare) {p : List UInt8} {row : ApiKey}
    (hused : (d.row p).Used row) (now : Time) :
    check compare d.rawKey now row = .ok ["notifications:write"] := by
  have hfits := hd.2
  rw [hused, check]
  show (if (!compareAPIKeyHash compare d.rawKey d.keyHash) = true then _ else _) = _
  rw [hfits]
  rfl

/-- A request that brings a key goes on to the lookup. -/
theorem authenticate_of_key (hbearer : "Bearer ".toList.isPrefixOf r.header.toList = true)
    (hkey : keyOf r.header = d.rawKey) {p : List UInt8} (hp : apiKeyPrefix d.rawKey = some p) :
    authenticate compare r = (ask (Op.getAPIKeyByPrefix p) >>= lookedUp compare r) := by
  have hne : r.header ≠ "" := by
    intro he
    rw [he] at hbearer
    cases hbearer
  rw [authenticate, if_neg hne, hbearer, Bool.not_true, if_neg Bool.false_ne_true, hkey, hp,
    handle_some]

/-- A key on its way into the table. -/
def made (d : Issue) (p : List UInt8) : List (Event Request Empty Op.Res GoError Result) :=
  [.start 0 (.create d), .call 0 ⟨.createAPIKey (d.row p), .ok ()⟩]

/-- The key has been inserted. -/
theorem reached_made (hd : (Request.create d).Drawn compare) {p : List UInt8}
    (hp : apiKeyPrefix d.rawKey = some p) :
    Reached compare (made d p) ⟨[d.row p], Function.update (fun _ => none) 0
      (some ⟨.create d, [⟨.createAPIKey (d.row p), .ok ()⟩], ret (.created d.id d.rawKey)⟩)⟩ := by
  have hstart : Step (keys compare) idle (.start 0 (.create d))
      ⟨[], Function.update (fun _ => none) 0 (some ⟨.create d, [], create d⟩)⟩ :=
    .start rfl ⟨rfl, hd⟩
  rw [create, hp] at hstart
  exact (Run.single True.intro hstart).snoc True.intro
    (.call_update (Call.answer (.createAPIKey (d.row p)) []))

/-- The create has returned. -/
theorem returned (hd : (Request.create d).Drawn compare) {p : List UInt8}
    (hp : apiKeyPrefix d.rawKey = some p) :
    ∃ s t, Reached compare (made d p) s ∧ s.threads 0 = some t ∧ t.label = .create d ∧
      Step (keys compare) s (.finish 0 (.ok (.created d.id d.rawKey)))
        ⟨[d.row p], fun _ => none⟩ := by
  refine ⟨_, _, reached_made hd hp, Pool.threads_update .., rfl, ?_⟩
  have hfinish : Step (keys compare)
      ⟨[d.row p], Function.update (fun _ => none) 0
        (some ⟨.create d, [⟨.createAPIKey (d.row p), .ok ()⟩], ret (.created d.id d.rawKey)⟩)⟩
      (.finish 0 (.ok (.created d.id d.rawKey)))
      ⟨[d.row p], Function.update (fun _ => none) 0 none⟩ := .finish_update rfl rfl
  rwa [Function.update_eq_self] at hfinish

/-- The threads of the overlap: a create that has inserted, and a request. -/
def threads (d : Issue) (p : List UInt8) (r : ApiRequest)
    (log : List (Answered Op.Res GoError)) (prog : Act Result) :
    ℕ → Option (Thread Request Op.Res GoError Result) :=
  Function.update (Function.update (fun _ => none) 0
    (some ⟨.create d, [⟨.createAPIKey (d.row p), .ok ()⟩], ret (.created d.id d.rawKey)⟩)) 1
    (some ⟨.api r, log, prog⟩)

/-- The request has looked its key up. -/
theorem reached_looked_up (hd : (Request.create d).Drawn compare) (hnul : NulFree r.header)
    {p : List UInt8} (hp : apiKeyPrefix d.rawKey = some p)
    (hbearer : "Bearer ".toList.isPrefixOf r.header.toList = true)
    (hkey : keyOf r.header = d.rawKey) :
    Reached compare
      (made d p ++ [.start 1 (.api r), .call 1 ⟨.getAPIKeyByPrefix p, .ok (d.row p)⟩])
      ⟨[d.row p], threads d p r [⟨.getAPIKeyByPrefix p, .ok (d.row p)⟩]
        (letThrough r.touched (d.row p) ["notifications:write"] >>=
          fun reply => ret (.reply reply))⟩ := by
  have hmade := reached_made hd hp
  generalize hts : Function.update (fun _ => none) 0
    (some (⟨.create d, [⟨.createAPIKey (d.row p), .ok ()⟩], ret (.created d.id d.rawKey)⟩ :
      Thread Request Op.Res GoError Result)) = ts at hmade
  have hstart : Step (keys compare) ⟨[d.row p], ts⟩ (.start 1 (.api r))
      ⟨[d.row p], Function.update ts 1 (some ⟨.api r, [],
        authenticate compare r >>= fun reply => ret (.reply reply)⟩)⟩ :=
    .start (by rw [← hts]; rfl) ⟨rfl, hnul⟩
  rw [authenticate_of_key hbearer hkey hp] at hstart
  have hfound : (answer (.getAPIKeyByPrefix p) [d.row p]).1 = .ok (d.row p) := by
    have hself : ((d.row p).keyPrefix == p) = true := beq_self_eq_true p
    show Store.orNoRows (List.find? (fun row => row.keyPrefix == p) [d.row p]) = _
    simp only [List.find?_cons, hself]
    rfl
  have hsem := Call.answer (.getAPIKeyByPrefix p) [d.row p]
  rw [hfound] at hsem
  have hcall : Step (keys compare) ⟨[d.row p], Function.update ts 1 (some ⟨.api r, [],
      (ask (Op.getAPIKeyByPrefix p) >>= lookedUp compare r) >>= fun reply => ret (.reply reply)⟩)⟩
      (.call 1 ⟨.getAPIKeyByPrefix p, .ok (d.row p)⟩)
      ⟨[d.row p], Function.update ts 1 (some ⟨.api r, [⟨.getAPIKeyByPrefix p, .ok (d.row p)⟩],
        lookedUp compare r (.ok (d.row p)) >>= fun reply => ret (.reply reply)⟩)⟩ :=
    Step.ask_update hsem
  rw [lookedUp_ok, hkey, check_row hd (.refl _)] at hcall
  have hall := (hmade.snoc True.intro hstart).snoc True.intro hcall
  rw [List.append_assoc] at hall
  rw [threads, hts]
  exact hall

/-- The end of a request: the limiter allows it, and the key is noted as used. -/
def admitted (r : ApiRequest) (row : ApiKey) : List (Event Request Empty Op.Res GoError Result) :=
  [.call 1 ⟨.allow row.id.toString, .ok true⟩,
    .call 1 ⟨.touchAPIKeyLastUsed row.id r.touched, .ok ()⟩]

theorem run_admitted (w : List ApiKey) (ts : ℕ → Option (Thread Request Op.Res GoError Result))
    (log : List (Answered Op.Res GoError)) (r : ApiRequest) (row : ApiKey) (scopes : List String) :
    ∃ w' log', Run (keys compare) (fun _ _ => True)
      ⟨w, Function.update ts 1 (some ⟨.api r, log,
        letThrough r.touched row scopes >>= fun reply => ret (.reply reply)⟩)⟩ (admitted r row)
      ⟨w', Function.update ts 1 (some ⟨.api r, log', ret (.reply (.served
        ⟨row.environmentID, row.id, row.name, scopes, row.status⟩))⟩)⟩ :=
  ⟨_, _, (Run.single True.intro (.ask_update (Call.answer (.allow row.id.toString) w))).snoc
    True.intro (.ask_update (Call.answer (.touchAPIKeyLastUsed row.id r.touched) w))⟩

/-- A delete that has found the key. -/
def found (d : Issue) (p : List UInt8) : List (Event Request Empty Op.Res GoError Result) :=
  [.start 2 (.delete d.environmentID d.id),
    .call 2 ⟨.listAPIKeysByEnvironment d.environmentID, .ok [d.row p]⟩]

/-- The delete, while the request waits. -/
theorem run_deleted {p : List UInt8} (log : List (Answered Op.Res GoError)) (prog : Act Result) :
    ∃ s₀ ts, Run (keys compare) (fun _ _ => True) ⟨[d.row p], threads d p r log prog⟩
        (found d p) s₀ ∧
      Step (keys compare) s₀ (.call 2 ⟨.deleteAPIKey d.id, .ok ()⟩)
        ⟨[], Function.update ts 1 (some ⟨.api r, log, prog⟩)⟩ := by
  have hlist : [d.row p].filter (fun row => row.environmentID == d.environmentID) = [d.row p] := by
    simp [Issue.row]
  have hany : ([d.row p].any fun k => k.id == d.id) = true := by
    simp [Issue.row]
  have hnone : [d.row p].filter (fun row => row.id != d.id) = [] := by
    simp [Issue.row]
  have hlists := Call.answer (.listAPIKeysByEnvironment d.environmentID) [d.row p]
  have hdeletes := Call.answer (.deleteAPIKey d.id) [d.row p]
  rw [answer, hlist] at hlists
  rw [answer, hnone] at hdeletes
  have hstart : Step (keys compare) ⟨[d.row p], threads d p r log prog⟩
      (.start 2 (.delete d.environmentID d.id)) ⟨[d.row p], Function.update
        (threads d p r log prog) 2 (some ⟨.delete d.environmentID d.id, [],
          delete d.environmentID d.id⟩)⟩ := .start rfl ⟨rfl, True.intro⟩
  have hlisted : Step (keys compare) ⟨[d.row p], Function.update
        (threads d p r log prog) 2 (some ⟨.delete d.environmentID d.id, [],
          delete d.environmentID d.id⟩)⟩
      (.call 2 ⟨.listAPIKeysByEnvironment d.environmentID, .ok [d.row p]⟩)
      ⟨[d.row p], Function.update (threads d p r log prog) 2 (some ⟨.delete d.environmentID d.id,
        [⟨.listAPIKeysByEnvironment d.environmentID, .ok [d.row p]⟩],
        if ([d.row p].any fun k => k.id == d.id) = true then do
          perform (Op.deleteAPIKey d.id)
          ret .deleted
        else fail (.other ("not found: " ++ d.id.toString))⟩)⟩ := Step.call_update hlists
  rw [if_pos hany] at hlisted
  have hdeleted : Step (keys compare)
      ⟨[d.row p], Function.update (threads d p r log prog) 2 (some
        ⟨.delete d.environmentID d.id, [⟨.listAPIKeysByEnvironment d.environmentID, .ok [d.row p]⟩],
          .call (.deleteAPIKey d.id) fun r => ofExcept r >>= fun _ => ret .deleted⟩)⟩
      (.call 2 ⟨.deleteAPIKey d.id, .ok ()⟩)
      ⟨[], Function.update (threads d p r log prog) 2 (some ⟨.delete d.environmentID d.id,
        [⟨.listAPIKeysByEnvironment d.environmentID, .ok [d.row p]⟩, ⟨.deleteAPIKey d.id, .ok ()⟩],
        ret .deleted⟩)⟩ := Step.call_update hdeletes
  refine ⟨_, Function.update (Function.update (fun _ => none) 0
      (some ⟨.create d, [⟨.createAPIKey (d.row p), .ok ()⟩], ret (.created d.id d.rawKey)⟩)) 2
      (some ⟨.delete d.environmentID d.id,
        [⟨.listAPIKeysByEnvironment d.environmentID, .ok [d.row p]⟩, ⟨.deleteAPIKey d.id, .ok ()⟩],
        ret .deleted⟩), (Run.single True.intro hstart).snoc True.intro hlisted, ?_⟩
  -- the request is still where it was
  rw [Function.update_comm (by decide : (2 : ℕ) ≠ 1)]
  exact hdeleted

/-- The whole of it: a key is made, a request looks it up, it is deleted, and the request is let
through. -/
theorem overlapping (hd : (Request.create d).Drawn compare) (hnul : NulFree r.header)
    {p : List UInt8} (hp : apiKeyPrefix d.rawKey = some p)
    (hbearer : "Bearer ".toList.isPrefixOf r.header.toList = true)
    (hkey : keyOf r.header = d.rawKey) :
    ∃ s₀ s₁ s s' t, Reached compare (made d p ++
        [.start 1 (.api r), .call 1 ⟨.getAPIKeyByPrefix p, .ok (d.row p)⟩] ++ found d p) s₀ ∧
      Step (keys compare) s₀ (.call 2 ⟨.deleteAPIKey d.id, .ok ()⟩) s₁ ∧
      Run (keys compare) (fun _ _ => True) s₁ (admitted r (d.row p)) s ∧ s.threads 1 = some t ∧
      Step (keys compare) s (.finish 1 (.ok (.reply (.served
        ⟨d.environmentID, d.id, d.name, ["notifications:write"], "active"⟩)))) s' := by
  obtain ⟨s₀, ts, hfound, hdeleted⟩ := @run_deleted compare d r p
    [⟨.getAPIKeyByPrefix p, .ok (d.row p)⟩]
    (letThrough r.touched (d.row p) ["notifications:write"] >>= fun reply => ret (.reply reply))
  obtain ⟨w', log', hadmitted⟩ := @run_admitted compare [] ts
    [⟨.getAPIKeyByPrefix p, .ok (d.row p)⟩] r (d.row p) ["notifications:write"]
  exact ⟨s₀, _, _, _, _, (reached_looked_up hd hnul hp hbearer hkey).trans hfound, hdeleted,
    hadmitted, Pool.threads_update .., .finish_update rfl rfl⟩

end Overlap

/-- A key that passes the checks fits the hash. -/
theorem fits_of_check {apiKey : String} {now : Time} {row : ApiKey} {scopes : List String}
    (h : check compare apiKey now row = .ok scopes) :
    compareAPIKeyHash compare apiKey row.keyHash = true := by
  rw [check] at h
  split_ifs at h with hfits
  all_goals simpa using hfits

theorem compare_of_fits {apiKey hash : String} (h : compareAPIKeyHash compare apiKey hash = true) :
    compare hash apiKey = true := by
  rw [compareAPIKeyHash, Bool.and_eq_true] at h
  exact h.2

theorem nulFree_keyOf {header : String} (h : NulFree header) : NulFree (keyOf header) := by
  intro hmem
  rw [keyOf, trimSpace, String.toList_ofList, String.toList_ofList] at hmem
  apply h
  apply List.mem_of_mem_drop
  apply (List.dropWhile_sublist isSpace).mem
  rw [trimChars, List.mem_reverse] at hmem
  exact List.mem_reverse.mp ((List.dropWhile_sublist isSpace).mem hmem)

/-- **A request that is let through has a key that was issued**, and it acts in the
environment the key was issued for. -/
theorem served_issued (hone : OneKey compare) (h : Reached compare evs s) {i t auth}
    (ht : s.threads i = some t)
    (hs : Step (keys compare) s (.finish i (.ok (.reply (.served auth)))) s') :
    ∃ r d, t.label = .api r ∧ Issued compare evs d ∧ keyOf r.header = d.rawKey ∧
      auth.environmentID = d.environmentID ∧ auth.apiKeyID = d.id ∧ auth.apiKey = d.name ∧
      auth.status = "active" := by
  obtain ⟨r, p, row, scopes, hl, -, hlog, hcheck, rfl⟩ := found_of_served h ht hs
  obtain ⟨pre, post, s₁, s₂, rfl, hpre, hcall, -, -⟩ :=
    h.answered (h.called_of_idle (fun _ => rfl) ht hlog)
  obtain ⟨d, q, hd, -, hused⟩ := rows_issued hpre row (Call.found hcall).1
  have hstart := h.started_of_idle (fun _ => rfl) ht
  rw [hl] at hstart
  obtain ⟨w, w', hspawn⟩ := h.spawned hstart
  -- the key of the request and the generated one fit the same hash
  have hfits := compare_of_fits (fits_of_check hcheck)
  have hdrawn := compare_of_fits hd.2.2
  rw [hused] at hfits
  have hkey := hone _ _ _ (length_rawKey d hd.2.1).2 (nulFree_rawKey d) (nulFree_keyOf hspawn.2)
    hdrawn hfits
  refine ⟨r, d, hl, issued_mono _ hd, hkey.symm, ?_⟩
  rw [hused]
  exact ⟨rfl, rfl, rfl, rfl⟩

namespace Sample

/-- A hash that shows the key. -/
def fits (hash key : String) : Bool := hash == "$2a$10$" ++ key

def rawKey : String := generateProjectAPIKey "live" (List.replicate 32 0)

def issue : Issue where
  environmentID := .ofDigit 1
  name := "ci"
  randomBytes := List.replicate 32 0
  keyHash := "$2a$10$" ++ rawKey
  id := .ofDigit 2
  now := 0

def request : ApiRequest where
  header := "Bearer " ++ rawKey
  now := 1
  touched := 2

theorem oneKey : OneKey fits := by
  intro hash k k' _ _ _ hk hk'
  have h := (beq_iff_eq.mp hk).symm.trans (beq_iff_eq.mp hk')
  have hlist := congrArg String.toList h
  rw [String.toList_append, String.toList_append] at hlist
  rw [← String.ofList_toList (s := k), ← String.ofList_toList (s := k'),
    List.append_cancel_left hlist]

theorem drawn : (Request.create issue).Drawn fits := by
  refine ⟨List.length_replicate, ?_⟩
  show (rawKey != "" && "$2a$10$" ++ rawKey != "" && fits ("$2a$10$" ++ rawKey) rawKey) = true
  decide +kernel

theorem nulFree : NulFree request.header := by
  have h : ("Bearer ".toList).all (fun c => c != '\x00') = true := by decide +kernel
  intro hmem
  rw [request, String.toList_append] at hmem
  rcases List.mem_append.mp hmem with hmem | hmem
  · exact absurd (List.all_eq_true.mp h _ hmem) (by simp)
  · exact nulFree_rawKey issue hmem

theorem bearer : "Bearer ".toList.isPrefixOf request.header.toList = true := by
  rw [request, String.toList_append, List.isPrefixOf_iff_prefix]
  exact List.prefix_append ..

theorem key : keyOf request.header = issue.rawKey := keyOf_bearer issue

end Sample

/-- A key is made and used, and deleted meanwhile. -/
theorem served_issued_first : ∃ evs s s' t auth, Reached Sample.fits evs s ∧
    s.threads 1 = some t ∧
    Step (keys Sample.fits) s (.finish 1 (.ok (.reply (.served auth)))) s' ∧
    ∃ r d, t.label = .api r ∧ Issued Sample.fits evs d ∧ keyOf r.header = d.rawKey ∧
      auth.environmentID = d.environmentID ∧ auth.apiKeyID = d.id ∧ auth.apiKey = d.name ∧
      auth.status = "active" := by
  obtain ⟨s₀, s₁, s, s', t, hbefore, hdel, hafter, ht, hs⟩ :=
    overlapping Sample.drawn Sample.nulFree (apiKeyPrefix_rawKey _ Sample.drawn.1) Sample.bearer
      Sample.key
  have hall := (hbefore.snoc True.intro hdel).trans hafter
  exact ⟨_, _, _, _, _, hall, ht, hs, served_issued Sample.oneKey hall ht hs⟩

/-! ### Ids are drawn once -/

/-- The id a request draws. -/
def drawnID : Event Request Empty Op.Res GoError Result → Option UUID
  | .start _ (.create d) => some d.id
  | _ => none

def drawnIDs (evs : List (Event Request Empty Op.Res GoError Result)) : List UUID :=
  evs.filterMap drawnID

/-- Activity `i` is a create for `id` that has not got to its statement yet. -/
def Pending (s : Pool (List ApiKey) Request Op.Res GoError Result) (i : ℕ) (id : UUID) : Prop :=
  ∃ t d, s.threads i = some t ∧ t.label = .create d ∧ t.log = [] ∧ d.id = id

/-- The statement of a create for `id` was made. -/
def Inserted (evs : List (Event Request Empty Op.Res GoError Result)) (id : UUID) : Prop :=
  ∃ i arg r, .call i ⟨.createAPIKey arg, r⟩ ∈ evs ∧ arg.id = id

theorem mem_drawnIDs {i : ℕ} {d : Issue} (h : .start i (.create d) ∈ evs) : d.id ∈ drawnIDs evs :=
  List.mem_filterMap.mpr ⟨_, h, rfl⟩

/-- Two creates with one id are one. -/
theorem issue_unique (hnd : (drawnIDs evs).Nodup) {i j : ℕ} {d d' : Issue}
    (h : .start i (.create d) ∈ evs) (h' : .start j (.create d') ∈ evs) (hid : d.id = d'.id) :
    d = d' := by
  induction evs with
  | nil => cases h
  | cons e evs ih =>
      rw [drawnIDs, List.filterMap_cons] at hnd
      rcases List.mem_cons.mp h with rfl | h <;> rcases List.mem_cons.mp h' with he | h'
      · cases he
        rfl
      · exact absurd (hid ▸ mem_drawnIDs h') (List.nodup_cons.mp hnd).1
      · rw [← he] at hnd
        exact absurd (hid ▸ mem_drawnIDs h) (List.nodup_cons.mp hnd).1
      · apply ih _ h h'
        split at hnd
        · exact hnd
        · exact (List.nodup_cons.mp hnd).2

/-- A create is pending because it has just come in, or it was and has not been at it. -/
theorem pending_step {e} (h : Step (keys compare) s e s') {i : ℕ} {id : UUID}
    (hp : Pending s' i id) :
    (∃ d, e = .start i (.create d) ∧ d.id = id) ∨ (Pending s i id ∧ ∀ a, e ≠ .call i a) := by
  obtain ⟨t, d, ht, hl, hlog, rfl⟩ := hp
  cases h with
  | @start _ _ _ j l _ _ =>
      rcases update_some_eq_some ht with ⟨rfl, rfl⟩ | ⟨-, hold⟩
      · cases hl
        exact Or.inl ⟨d, rfl, rfl⟩
      · exact Or.inr ⟨⟨t, d, hold, hl, hlog, rfl⟩, fun _ he => by cases he⟩
  | call _ _ =>
      rcases update_some_eq_some ht with ⟨-, rfl⟩ | ⟨hne, hold⟩
      · exact absurd hlog (List.append_ne_nil_of_right_ne_nil _ (List.cons_ne_nil _ _))
      · refine Or.inr ⟨⟨t, d, hold, hl, hlog, rfl⟩, ?_⟩
        rintro a ⟨⟩
        exact hne rfl
  | finish _ _ =>
      have hold := (update_none_eq_some ht).2
      exact Or.inr ⟨⟨t, d, hold, hl, hlog, rfl⟩, fun _ he => by cases he⟩
  | lose _ _ =>
      have hold := (update_none_eq_some ht).2
      exact Or.inr ⟨⟨t, d, hold, hl, hlog, rfl⟩, fun _ he => by cases he⟩
  | env _ => exact Or.inr ⟨⟨t, d, ht, hl, hlog, rfl⟩, fun _ he => by cases he⟩

/-- What holds of drawn ids as long as none is drawn twice. -/
structure Once (evs : List (Event Request Empty Op.Res GoError Result))
    (s : Pool (List ApiKey) Request Op.Res GoError Result) : Prop where
  /-- What is pending was drawn. -/
  pending : ∀ i id, Pending s i id → id ∈ drawnIDs evs
  /-- What was inserted was drawn. -/
  inserted : ∀ id, Inserted evs id → id ∈ drawnIDs evs
  /-- One create at most is pending for an id. -/
  one : ∀ i j id, Pending s i id → Pending s j id → i = j
  /-- What was inserted is not pending. -/
  spent : ∀ i id, Pending s i id → ¬ Inserted evs id

theorem drawnIDs_append (evs evs' : List (Event Request Empty Op.Res GoError Result)) :
    drawnIDs (evs ++ evs') = drawnIDs evs ++ drawnIDs evs' := List.filterMap_append

theorem drawnIDs_concat (evs : List (Event Request Empty Op.Res GoError Result)) (e) :
    drawnIDs (evs ++ [e]) = drawnIDs evs ++ (drawnID e).toList := by
  rw [drawnIDs, List.filterMap_append]
  rcases h : drawnID e with - | id <;> simp [drawnIDs, h]

theorem inserted_concat {e : Event Request Empty Op.Res GoError Result} {id : UUID}
    (h : Inserted (evs ++ [e]) id) :
    Inserted evs id ∨ ∃ i arg r, e = .call i ⟨.createAPIKey arg, r⟩ ∧ arg.id = id := by
  obtain ⟨i, arg, r, hmem, hid⟩ := h
  rcases List.mem_append.mp hmem with hmem | hmem
  · exact Or.inl ⟨i, arg, r, hmem, hid⟩
  · exact Or.inr ⟨i, arg, r, (List.mem_singleton.mp hmem).symm, hid⟩

/-- A statement that inserts was pending. -/
theorem pending_of_create {e} (h : Reached compare evs s) (hs : Step (keys compare) s e s')
    {i arg r} (he : e = .call i ⟨.createAPIKey arg, r⟩) :
    Pending s i arg.id ∧ arg.id ∈ drawnIDs evs := by
  subst he
  cases hs with
  | @call w w' ts i l tr op k r ht _ =>
      obtain ⟨d, p, rfl, ⟨⟨j, hj⟩, -⟩, -, rfl, rfl⟩ := issued_of_create h ht
      exact ⟨⟨_, d, ht, rfl, rfl, rfl⟩, mem_drawnIDs hj⟩

/-- Ids that are drawn once are inserted once. -/
theorem once (h : Reached compare evs s) (hnd : (drawnIDs evs).Nodup) : Once evs s := by
  induction h with
  | nil =>
      refine ⟨?_, ?_, ?_, ?_⟩
      · rintro i id ⟨t, d, ht, -⟩
        cases ht
      · rintro id ⟨i, arg, r, hmem, -⟩
        cases hmem
      · rintro i j id ⟨t, d, ht, -⟩
        cases ht
      · rintro i id ⟨t, d, ht, -⟩
        cases ht
  | @snoc evs p e p' hrun _ hs ih =>
      rw [drawnIDs_concat] at hnd
      obtain ⟨hpending, hinserted, hone, hspent⟩ := ih (List.nodup_append.mp hnd).1
      -- an id that is drawn now was not drawn before
      have hfresh : ∀ j d, e = .start j (.create d) → d.id ∉ drawnIDs evs := by
        rintro j d rfl hold
        exact (List.nodup_append.mp hnd).2.2 _ hold _ (List.mem_singleton_self _) rfl
      refine ⟨?_, ?_, ?_, ?_⟩
      · intro i id hp
        rw [drawnIDs_concat]
        rcases pending_step hs hp with ⟨d, rfl, rfl⟩ | ⟨hold, -⟩
        · exact List.mem_append_right _ (List.mem_singleton_self _)
        · exact List.mem_append_left _ (hpending i id hold)
      · intro id hi
        rw [drawnIDs_concat]
        apply List.mem_append_left
        rcases inserted_concat hi with hold | ⟨i, arg, r, he, rfl⟩
        · exact hinserted id hold
        · exact (pending_of_create hrun hs he).2
      · intro i j id hi hj
        rcases pending_step hs hi with ⟨d, he, rfl⟩ | ⟨hi, -⟩ <;>
          rcases pending_step hs hj with ⟨d', he', hid⟩ | ⟨hj, -⟩
        · cases he.symm.trans he'
          rfl
        · exact absurd (hpending j _ hj) (hfresh i d he)
        · exact absurd (hid ▸ hpending i _ hi) (hfresh j d' he')
        · exact hone i j id hi hj
      · intro i id hi hins
        rcases pending_step hs hi with ⟨d, he, rfl⟩ | ⟨hi, hcall⟩ <;>
          rcases inserted_concat hins with hold | ⟨j, arg, r, he', hid⟩
        · exact hfresh i d he (hinserted _ hold)
        · cases he.symm.trans he'
        · exact hspent i id hi hold
        · have hj := (pending_of_create hrun hs he').1
          rw [hid] at hj
          cases hone i j id hi hj
          exact hcall _ he'

/-- A row in the table was inserted. -/
theorem inserted_of_mem (h : Reached compare evs s) : ∀ row ∈ s.world, Inserted evs row.id := by
  induction h with
  | nil => exact fun row hrow => by cases hrow
  | @snoc evs p e p' hrun _ hs ih =>
      have hold : ∀ row ∈ p.world, Inserted (evs ++ [e]) row.id := by
        intro row hrow
        obtain ⟨i, arg, r, hmem, hid⟩ := ih row hrow
        exact ⟨i, arg, r, List.mem_append_left _ hmem, hid⟩
      intro row hrow
      rcases world_of_step hs with hw | ⟨i, l, tr, op, k, r, -, rfl, hcall⟩
      · rw [hw] at hrow
        exact hold row hrow
      · rcases hcall.mem hrow with rfl | ⟨old, hmem, hused⟩
        · exact ⟨i, row, r, List.mem_append_right _ (List.mem_singleton_self _), rfl⟩
        · rw [hused]
          exact hold old hmem

/-- A key about to be deleted was in the table, in the environment that deletes it. -/
theorem listed_of_deleting (h : Reached compare evs s) {i l tr id k}
    (ht : s.threads i = some ⟨l, tr, .call (.deleteAPIKey id) k⟩) :
    ∃ e pre post s₁ row, l = .delete e id ∧ evs = pre ++ post ∧ Reached compare pre s₁ ∧
      row ∈ s₁.world ∧ row.id = id ∧ row.environmentID = e := by
  obtain ⟨hmakes, hstart, hdrawn, hafter⟩ := about_to h ht
  cases l with
  | create d =>
      obtain ⟨p, hp, hop⟩ := hmakes
      cases hop
  | list e => cases hmakes
  | delete e id' =>
      have hid : id' = id := by
        rcases hmakes with hop | hop <;> cases hop
        rfl
      subst hid
      obtain ⟨rows, rfl, row, hrow, hid⟩ := listed_of_delete hafter
      obtain ⟨pre, post, s₁, s₂, rfl, hpre, hcall, -, -⟩ :=
        h.answered (h.called_of_idle (fun _ => rfl) ht (List.mem_singleton_self _))
      obtain ⟨hmem, he⟩ := Call.listed hcall hrow
      exact ⟨e, pre, _, s₁, row, rfl, rfl, hpre, hmem, hid, he⟩
  | api r => exact hmakes.elim

/-- A deleted key does not come back. -/
theorem gone (h : Reached compare evs s) {id : UUID} (hins : Inserted evs id)
    (hgone : ∀ row ∈ s.world, row.id ≠ id)
    {post : List (Event Request Empty Op.Res GoError Result)}
    (hpost : Run (keys compare) (fun _ _ => True) s post s')
    (hnd : (drawnIDs (evs ++ post)).Nodup) : ∀ row ∈ s'.world, row.id ≠ id := by
  induction hpost with
  | nil => exact hgone
  | @snoc post p e p' hrun _ hs ih =>
      rw [← List.append_assoc, drawnIDs_concat] at hnd
      have hnd' := (List.nodup_append.mp hnd).1
      intro row hrow
      rcases world_of_step hs with hw | ⟨i, l, tr, op, k, r, -, rfl, hcall⟩
      · rw [hw] at hrow
        exact ih hnd' row hrow
      · rcases hcall.mem hrow with rfl | ⟨old, hmem, hused⟩
        · -- what is inserted was pending, and the key was inserted before
          have hall := h.trans hrun
          rintro rfl
          obtain ⟨j, arg, r', hmem, hid⟩ := hins
          exact (once hall hnd').spent i _ (pending_of_create hall hs rfl).1
            ⟨j, arg, r', List.mem_append_left _ hmem, hid⟩
        · rw [hused]
          exact ih hnd' old hmem

/-- **After a key was deleted, only requests that had looked it up before are let through.** -/
theorem looked_up_before {s₀ s₁ : Pool (List ApiKey) Request Op.Res GoError Result}
    {post : List (Event Request Empty Op.Res GoError Result)} {id : UUID} {j : ℕ}
    (h : Reached compare evs s₀)
    (hdel : Step (keys compare) s₀ (.call j ⟨.deleteAPIKey id, .ok ()⟩) s₁)
    (hpost : Run (keys compare) (fun _ _ => True) s₁ post s)
    (hnd : (drawnIDs (evs ++ post)).Nodup) {i t auth} (ht : s.threads i = some t)
    (hs : Step (keys compare) s (.finish i (.ok (.reply (.served auth)))) s')
    (hid : auth.apiKeyID = id) :
    ∃ p row, s₁.Logged i t.label ⟨.getAPIKeyByPrefix p, .ok row⟩ ∧ row.id = id := by
  have hmid := h.snoc True.intro hdel
  obtain ⟨r, p, row, scopes, -, -, hlog, -, rfl⟩ := found_of_served (hmid.trans hpost) ht hs
  refine ⟨p, row, ?_, hid⟩
  rcases hpost.called i t _ ht hlog with hcall | hbefore
  · obtain ⟨post₁, post₂, s₂, s₃, rfl, hrun, hfound, -, -⟩ := hpost.answered hcall
    -- the key was in the table before the delete, and is not in it since
    have hins : Inserted (evs ++ [.call j ⟨.deleteAPIKey id, .ok ()⟩]) id := by
      cases hdel with
      | call htd _ =>
          obtain ⟨e, pre, mid, s₄, old, -, rfl, hpre, hmem, hold, -⟩ := listed_of_deleting h htd
          obtain ⟨i', arg, r', hin, hid'⟩ := inserted_of_mem hpre old hmem
          refine ⟨i', arg, r', ?_, hid'.trans hold⟩
          rw [List.append_assoc]
          exact List.mem_append_left _ hin
    have hclear : ∀ row ∈ s₁.world, row.id ≠ id := by
      cases hdel with
      | call _ hsem => exact Call.deleted hsem
    have hnd' : (drawnIDs ((evs ++ [.call j ⟨.deleteAPIKey id, .ok ()⟩]) ++ post₁)).Nodup := by
      rw [drawnIDs_append, drawnIDs_append, ← List.append_assoc] at hnd
      rw [drawnIDs_append, drawnIDs_concat]
      show (drawnIDs evs ++ [] ++ drawnIDs post₁).Nodup
      rw [List.append_nil]
      exact (List.nodup_append.mp hnd).1
    exact absurd hid (gone hmid hins hclear hrun hnd' row (Call.found hfound).1)
  · exact hbefore

/-- A request that had looked its key up is let through after the delete. -/
theorem looked_up_before_first : ∃ evs s₀ s₁ post s s' t, Reached Sample.fits evs s₀ ∧
    Step (keys Sample.fits) s₀ (.call 2 ⟨.deleteAPIKey Sample.issue.id, .ok ()⟩) s₁ ∧
    Run (keys Sample.fits) (fun _ _ => True) s₁ post s ∧ (drawnIDs (evs ++ post)).Nodup ∧
    s.threads 1 = some t ∧
    Step (keys Sample.fits) s (.finish 1 (.ok (.reply (.served ⟨Sample.issue.environmentID,
      Sample.issue.id, Sample.issue.name, ["notifications:write"], "active"⟩)))) s' ∧
    ∃ p row, s₁.Logged 1 t.label ⟨.getAPIKeyByPrefix p, .ok row⟩ ∧ row.id = Sample.issue.id := by
  obtain ⟨p, hp⟩ : ∃ p, apiKeyPrefix Sample.issue.rawKey = some p :=
    ⟨_, apiKeyPrefix_rawKey _ Sample.drawn.1⟩
  obtain ⟨s₀, s₁, s, s', t, hbefore, hdel, hafter, ht, hs⟩ :=
    overlapping Sample.drawn Sample.nulFree hp Sample.bearer Sample.key
  have hnd : (drawnIDs ((made Sample.issue p ++ [.start 1 (.api Sample.request),
      .call 1 ⟨.getAPIKeyByPrefix p, .ok (Sample.issue.row p)⟩] ++ found Sample.issue p) ++
      admitted Sample.request (Sample.issue.row p))).Nodup := List.nodup_singleton Sample.issue.id
  exact ⟨_, s₀, s₁, _, s, s', t, hbefore, hdel, hafter, hnd, ht, hs,
    looked_up_before hbefore hdel hafter hnd ht hs rfl⟩

/-! ### A key serves until it is deleted -/

/-- No two rows have one prefix. -/
theorem Call.nodup {op : Op} {rows rows' : List ApiKey} {r : Except GoError op.Res}
    (h : Call op rows r rows') (hnd : (rows.map ApiKey.keyPrefix).Nodup) :
    (rows'.map ApiKey.keyPrefix).Nodup := by
  have hans : ((ApiKeys.answer op rows).2.map ApiKey.keyPrefix).Nodup := by
    cases op with
    | createAPIKey arg =>
        rw [ApiKeys.answer]
        -- a prefix that is there already is refused
        split_ifs with hany
        · exact hnd
        · rw [List.map_append, List.nodup_append]
          refine ⟨hnd, List.nodup_singleton _, ?_⟩
          intro q hq q' hq' he
          obtain ⟨row, hrow, rfl⟩ := List.mem_map.mp hq
          rw [List.map_singleton, List.mem_singleton] at hq'
          apply hany
          exact List.any_eq_true.mpr ⟨row, hrow, by simp [he, hq']⟩
    | getAPIKeyByPrefix p => exact hnd
    | listAPIKeysByEnvironment e => exact hnd
    | touchAPIKeyLastUsed id now =>
        show ((rows.map _).map ApiKey.keyPrefix).Nodup
        rw [List.map_map]
        convert hnd using 1
        apply List.map_congr_left
        intro row _
        simp only [Function.comp_apply]
        split_ifs <;> rfl
    | deleteAPIKey id => exact hnd.sublist (List.filter_sublist.map _)
    | allow s => exact hnd
  cases h with
  | answer => exact hans
  | fault => exact hnd
  | lost => exact hans
  | allow => exact hnd

theorem prefixes_nodup (h : Reached compare evs s) : (s.world.map ApiKey.keyPrefix).Nodup := by
  induction h with
  | nil => exact List.nodup_nil
  | snoc _ _ hs ih =>
      rcases world_of_step hs with hw | ⟨i, l, tr, op, k, r, -, -, hcall⟩
      · rw [hw]
        exact ih
      · exact hcall.nodup ih

/-- A row is the only one under its prefix. -/
theorem find?_keyPrefix {rows : List ApiKey} (hnd : (rows.map ApiKey.keyPrefix).Nodup)
    {row : ApiKey} (h : row ∈ rows) :
    rows.find? (fun row' => row'.keyPrefix == row.keyPrefix) = some row := by
  induction rows with
  | nil => cases h
  | cons first rows ih =>
      rw [List.map_cons, List.nodup_cons] at hnd
      rcases List.mem_cons.mp h with rfl | h
      · exact List.find?_cons_of_pos (beq_self_eq_true _)
      · have hne : (first.keyPrefix == row.keyPrefix) = false := by
          rw [beq_eq_false_iff_ne]
          intro he
          exact hnd.1 (he ▸ List.mem_map_of_mem h)
        rw [List.find?_cons, hne]
        exact ih hnd.2 h

/-- What was inserted was issued. -/
theorem issued_of_called (h : Reached compare evs s) {i arg r}
    (hcall : .call i ⟨.createAPIKey arg, r⟩ ∈ evs) :
    ∃ d p, Issued compare evs d ∧ apiKeyPrefix d.rawKey = some p ∧ arg = d.row p := by
  obtain ⟨pre, post, s₁, s₂, rfl, hpre, -, hs, -⟩ := h.answered hcall
  cases hs with
  | call ht _ =>
      obtain ⟨d, p, -, hd, hp, rfl, -⟩ := issued_of_create hpre ht
      exact ⟨d, p, issued_mono _ hd, hp, rfl⟩

/-- **Only its own environment deletes a key.** -/
theorem deleted_by_own (h : Reached compare evs s) (hnd : (drawnIDs evs).Nodup) {d : Issue}
    (hd : Issued compare evs d) {i l tr k}
    (ht : s.threads i = some ⟨l, tr, .call (.deleteAPIKey d.id) k⟩) :
    l = .delete d.environmentID d.id := by
  obtain ⟨e, pre, post, s₁, row, rfl, rfl, hpre, hmem, hid, he⟩ := listed_of_deleting h ht
  obtain ⟨d', q, hd', -, hused⟩ := rows_issued hpre row hmem
  obtain ⟨⟨j, hj⟩, -⟩ := hd
  obtain ⟨⟨j', hj'⟩, -⟩ := issued_mono post hd'
  rw [hused] at hid he
  rw [issue_unique hnd hj hj' hid.symm]
  exact congrArg (Request.delete · _) he.symm

/-- A key stays until its environment deletes it. -/
theorem kept (h : Reached compare evs s) (hnd : (drawnIDs evs).Nodup) {i : ℕ} {arg : ApiKey}
    (hcall : .call i ⟨.createAPIKey arg, .ok ()⟩ ∈ evs)
    (hno : ∀ j, .start j (.delete arg.environmentID arg.id) ∉ evs) :
    ∃ row ∈ s.world, arg.Used row := by
  induction h with
  | nil => cases hcall
  | @snoc evs p e p' hrun _ hs ih =>
      rw [drawnIDs_concat] at hnd
      have hnd' := (List.nodup_append.mp hnd).1
      have hno' : ∀ j, .start j (.delete arg.environmentID arg.id) ∉ evs :=
        fun j hj => hno j (List.mem_append_left _ hj)
      rcases List.mem_append.mp hcall with hold | hnew
      · obtain ⟨row, hrow, hused⟩ := ih hnd' hold hno'
        rcases world_of_step hs with hw | ⟨j, l, tr, op, k, r, ht, rfl, hc⟩
        · rw [hw]
          exact ⟨row, hrow, hused⟩
        · rcases hc.mem_of_mem hrow with rfl | ⟨new, hmem, hnew⟩
          · obtain ⟨d, q, hd, -, rfl⟩ := issued_of_called hrun hold
            have hid : row.id = d.id := by rw [hused]; rfl
            rw [hid] at ht
            have hl := deleted_by_own hrun hnd' hd ht
            have hstart := (about_to hrun ht).2.1
            rw [hl] at hstart
            exact absurd hstart (hno' j)
          · exact ⟨new, hmem, hused.trans hnew⟩
      · cases List.mem_singleton.mp hnew
        cases hs with
        | call _ hsem => exact ⟨arg, Call.created hsem, .refl arg⟩

/-- **A key works until its environment deletes it**, whatever goes on besides: with the
statements answered and the limiter allowing, a request that brings it is let through. -/
theorem serves_until_deleted {s₀ s₁ : Pool (List ApiKey) Request Op.Res GoError Result}
    {post : List (Event Request Empty Op.Res GoError Result)} {j : ℕ} {t d out}
    (h : Reached compare evs s₀) (ht : s₀.threads j = some t) (hl : t.label = .create d)
    (hcreated : Step (keys compare) s₀ (.finish j (.ok out)) s₁)
    (hpost : Run (keys compare) (fun _ _ => True) s₁ post s)
    (hnd : (drawnIDs (evs ++ .finish j (.ok out) :: post)).Nodup)
    (hno : ∀ i, .start i (.delete d.environmentID d.id) ∉ evs ++ .finish j (.ok out) :: post)
    {r : ApiRequest} (hbearer : "Bearer ".toList.isPrefixOf r.header.toList = true)
    (hkey : keyOf r.header = d.rawKey) :
    out = .created d.id d.rawKey ∧
      ((authenticate compare r).drive answer s.world).2.1 =
        .ok (.served ⟨d.environmentID, d.id, d.name, ["notifications:write"], "active"⟩) := by
  have hall := (h.snoc True.intro hcreated).trans hpost
  rw [List.append_assoc, List.singleton_append] at hall
  obtain ⟨l, tr, prog⟩ := t
  cases hl
  obtain ⟨p, hp, hlog, hout⟩ : ∃ p, apiKeyPrefix d.rawKey = some p ∧
      tr = [⟨.createAPIKey (d.row p), .ok ()⟩] ∧ out = .created d.id d.rawKey := by
    have hafter := h.after_of_idle (fun _ => rfl) ht
    cases hcreated with
    | finish ht' _ =>
        cases ht'.symm.trans ht
        change After (create d) tr (ofExcept (.ok out)) at hafter
        exact path_create hafter.path
  refine ⟨hout, ?_⟩
  have hcall := h.called_of_idle (fun _ => rfl) ht (a := ⟨.createAPIKey (d.row p), .ok ()⟩)
    (by rw [hlog]; exact List.mem_singleton_self _)
  obtain ⟨row, hrow, hused⟩ := kept hall hnd (List.mem_append_left _ hcall) hno
  obtain ⟨w, w', hspawn⟩ := h.spawned (h.started_of_idle (fun _ => rfl) ht)
  have hfound : (answer (.getAPIKeyByPrefix p) s.world).1 = .ok row := by
    have hq : row.keyPrefix = p := by rw [hused]; rfl
    have hfind := find?_keyPrefix (prefixes_nodup hall) hrow
    rw [hq] at hfind
    show Store.orNoRows _ = _
    rw [hfind]
    rfl
  rw [authenticate_of_key hbearer hkey hp]
  show ((lookedUp compare r (answer (.getAPIKeyByPrefix p) s.world).1).drive answer
    s.world).2.1 = _
  rw [hfound, lookedUp_ok, hkey, check_row hspawn.2 hused, hused]
  rfl

namespace Sample

/-- What may go on besides: no other key is made, and the key is not deleted by its own
environment. -/
def Besides : Event Request Empty Op.Res GoError Result → Prop
  | .start _ (.create _) => False
  | .start _ (.delete e id) => ¬ (e = issue.environmentID ∧ id = issue.id)
  | _ => True

/-- A request that is worked on while there is no other. -/
def alone (l : Request) (rows : List ApiKey) :
    List (Event Request Empty Op.Res GoError Result) :=
  .start 1 l :: ((l.program fits).drive answer rows).1.map (.call 1) ++
    [.finish 1 ((l.program fits).drive answer rows).2.1]

theorem run_alone (l : Request) (rows : List ApiKey) (hl : Besides (.start 1 l))
    (hdrawn : l.Drawn fits) :
    Run (keys fits) (fun _ e => Besides e) ⟨rows, fun _ => none⟩ (alone l rows)
      ⟨((l.program fits).drive answer rows).2.2, fun _ => none⟩ :=
  Run.drive_events answer (fun _ _ => true) Call.answer hl (fun _ _ _ _ _ => True.intro)
    (fun _ _ => True.intro) ⟨rfl, hdrawn⟩ (driveAll_true ..) rfl

/-- The environment of nobody's key. -/
def stranger : UUID := .ofDigit 3

/-- Requests served one after the other. -/
def afterwards : List Request → List ApiKey → List (Event Request Empty Op.Res GoError Result)
  | [], _ => []
  | l :: ls, rows => alone l rows ++ afterwards ls ((l.program fits).drive answer rows).2.2

/-- Requests served one after the other are a run. -/
theorem run_afterwards (ls : List Request)
    (hls : ∀ l ∈ ls, Besides (.start 1 l) ∧ l.Drawn fits) (rows : List ApiKey) :
    ∃ rows', Run (keys fits) (fun _ e => Besides e) ⟨rows, fun _ => none⟩ (afterwards ls rows)
      ⟨rows', fun _ => none⟩ := by
  induction ls generalizing rows with
  | nil => exact ⟨rows, .nil _⟩
  | cons l ls ih =>
      obtain ⟨hl, hdrawn⟩ := hls l List.mem_cons_self
      obtain ⟨rows', h⟩ := ih (fun l hl => hls l (List.mem_cons_of_mem _ hl)) _
      exact ⟨rows', (run_alone l rows hl hdrawn).trans h⟩

/-- A stranger tries to delete the key, its own environment lists its keys, and it is used. -/
def others : List Request :=
  [.delete stranger issue.id, .list issue.environmentID, .api request]

theorem besides_others : ∀ l ∈ others, Besides (.start 1 l) ∧ l.Drawn fits := by
  intro l hl
  simp only [others, List.mem_cons, List.not_mem_nil, or_false] at hl
  rcases hl with rfl | rfl | rfl
  · refine ⟨?_, True.intro⟩
    rintro ⟨he, -⟩
    exact absurd he (by decide)
  · exact ⟨True.intro, True.intro⟩
  · exact ⟨True.intro, nulFree⟩

end Sample

/-- The key still serves after what others have asked for. -/
theorem serves_until_deleted_others : ∃ evs s₀ s₁ s j t p,
    Reached Sample.fits evs s₀ ∧ s₀.threads j = some t ∧ t.label = .create Sample.issue ∧
    Step (keys Sample.fits) s₀
      (.finish j (.ok (.created Sample.issue.id Sample.issue.rawKey))) s₁ ∧
    Run (keys Sample.fits) (fun _ _ => True) s₁
      (Sample.afterwards Sample.others [Sample.issue.row p]) s ∧
    ((authenticate Sample.fits Sample.request).drive answer s.world).2.1 =
      .ok (.served ⟨Sample.issue.environmentID, Sample.issue.id, Sample.issue.name,
        ["notifications:write"], "active"⟩) := by
  obtain ⟨p, hp⟩ : ∃ p, apiKeyPrefix Sample.issue.rawKey = some p :=
    ⟨_, apiKeyPrefix_rawKey _ Sample.drawn.1⟩
  obtain ⟨s₀, t, hmade, ht, hl, hfinish⟩ := returned Sample.drawn hp
  obtain ⟨rows, hothers⟩ := Sample.run_afterwards Sample.others Sample.besides_others
    [Sample.issue.row p]
  have hbesides := hothers.forall_mem (D := Sample.Besides) fun _ _ he => he
  have hpost : Run (keys Sample.fits) (fun _ _ => True) _ _ _ :=
    hothers.mono fun _ _ _ => True.intro
  refine ⟨_, s₀, _, _, 0, t, _, hmade, ht, hl, hfinish, hpost, ?_⟩
  refine (serves_until_deleted hmade ht hl hfinish hpost ?_ ?_ Sample.bearer Sample.key).2
  · -- the others draw no id
    have hnone : drawnIDs (Sample.afterwards Sample.others [Sample.issue.row p]) = [] := by
      refine List.filterMap_eq_nil_iff.mpr fun e he => ?_
      have := hbesides e he
      unfold drawnID
      split
      · exact this.elim
      · rfl
    rw [drawnIDs, List.filterMap_append, List.filterMap_cons_none rfl]
    rw [drawnIDs] at hnone
    rw [hnone]
    exact List.nodup_singleton Sample.issue.id
  · -- no delete from its own environment: not before, not at its return, not after
    intro i hmem
    rcases List.mem_append.mp hmem with hmem | hmem
    · simp [made] at hmem
    · rcases List.mem_cons.mp hmem with heq | hmem
      · cases heq
      · exact hbesides _ hmem ⟨rfl, rfl⟩

end Runs

end Iwifunni.Auth.ApiKeys
