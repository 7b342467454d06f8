/-
Iwifunni/Auth/ApiKeys.lean

API keys (`apikey/service.go`, `utils/apikey/apikey.go`, `middleware/apikey.go`).

A key is drawn, shown once, and from then on only its hash is there, under the first
bytes of its text:

    Create      nk_live_ and 43 characters     INSERT key_prefix, key_hash
    a request   Authorization: Bearer <key>    SELECT by key_prefix, compare, limit, touch
    Delete      by environment and id          SELECT by environment, DELETE by id

The bytes of a generated key, which statements a request makes, and what each statement
does to the rows.  What follows for requests that overlap is in
`Iwifunni.Auth.Revocation`.
-/
import Iwifunni.Effect.History
import Iwifunni.Go.Base64
import Iwifunni.Store

namespace Iwifunni.Auth.ApiKeys

open Go Db Effect Effect.Prog

/-! ### The text of a key (`utils/apikey`) -/

/-- The bytes of a text. -/
def bytesOf (s : String) : List UInt8 := s.toList.flatMap String.utf8EncodeChar

/-- `strings.SplitN` for a separator of one character, with `n` cuts at most. -/
def splitN (sep : Char) : ℕ → List Char → List (List Char)
  | 0, cs => [cs]
  | n + 1, cs =>
      match cs.dropWhile (· != sep) with
      | [] => [cs]
      | _ :: rest => cs.takeWhile (· != sep) :: splitN sep n rest

def apiKeyLookupPrefixLength : ℕ := 16

/-- `APIKeyPrefix`. -/
def apiKeyPrefix (apiKey : String) : Option (List UInt8) :=
  if !"nk_".toList.isPrefixOf apiKey.toList then none
  else if (bytesOf apiKey).length < apiKeyLookupPrefixLength then none
  else match splitN '_' 2 apiKey.toList with
    | [_, environment, secret] =>
        if environment.isEmpty || secret.isEmpty then none
        else some ((bytesOf apiKey).take apiKeyLookupPrefixLength)
    | _ => none

/-- The alphabet of `base64.URLEncoding`. -/
def urlChar (c : Char) : Char :=
  if c = '+' then '-' else if c = '/' then '_' else c

/-- `base64.RawURLEncoding`: another alphabet, and not filled up. -/
def rawURLEncode (bytes : List UInt8) : List Char :=
  ((Base64.encodeChars bytes).filter (· != '=')).map urlChar

/-- `GenerateProjectAPIKey`, from the bytes it draws. -/
def generateProjectAPIKey (environment : String) (randomBytes : List UInt8) : String :=
  "nk_" ++ environment ++ "_" ++ String.ofList (rawURLEncode randomBytes)

/-! ### The table -/

/-- A row of `apikeys`. -/
structure ApiKey where
  id : UUID
  environmentID : UUID
  name : String
  keyPrefix : List UInt8
  keyHash : String
  scopes : Option Json
  status : String
  expiresAt : Option Time
  lastUsedAt : Option Time
  createdAt : Time
  updatedAt : Time

/-- The statements, and `limiter.Allow`. -/
inductive Op
  | createAPIKey (arg : ApiKey)
  | getAPIKeyByPrefix (keyPrefix : List UInt8)
  | listAPIKeysByEnvironment (environmentID : UUID)
  | touchAPIKeyLastUsed (id : UUID) (nowTs : Time)
  | deleteAPIKey (id : UUID)
  | allow (serviceID : String)

abbrev Op.Res : Op → Type
  | createAPIKey _ => Unit
  | getAPIKeyByPrefix _ => ApiKey
  | listAPIKeysByEnvironment _ => List ApiKey
  | touchAPIKeyLastUsed _ _ => Unit
  | deleteAPIKey _ => Unit
  | allow _ => Bool

abbrev Act (α : Type) : Type := Prog Op.Res GoError α

/-- What a statement does: the primary key and `key_prefix` are unique. -/
def answer : (op : Op) → List ApiKey → Except GoError op.Res × List ApiKey
  | .createAPIKey arg, rows =>
      if rows.any fun row => row.id == arg.id || row.keyPrefix == arg.keyPrefix then
        (.error Store.uniqueViolation, rows)
      else (.ok (), rows ++ [arg])
  | .getAPIKeyByPrefix keyPrefix, rows =>
      (Store.orNoRows (rows.find? fun row => row.keyPrefix == keyPrefix), rows)
  | .listAPIKeysByEnvironment environmentID, rows =>
      (.ok (rows.filter fun row => row.environmentID == environmentID), rows)
  | .touchAPIKeyLastUsed id nowTs, rows =>
      (.ok (), rows.map fun row =>
        if row.id = id then { row with lastUsedAt := some nowTs, updatedAt := nowTs } else row)
  | .deleteAPIKey id, rows => (.ok (), rows.filter fun row => row.id != id)
  | .allow _, rows => (.ok true, rows)

/-- A statement is answered, or fails, or its answer is lost; the limiter says what it
likes. -/
inductive Call : (op : Op) → List ApiKey → Except GoError op.Res → List ApiKey → Prop
  | answer (op rows) : Call op rows (answer op rows).1 (answer op rows).2
  | fault (op rows) (text : String) : Call op rows (.error (.other text)) rows
  | lost (op rows) (text : String) : Call op rows (.error (.other text)) (answer op rows).2
  | allow (serviceID rows) (ok : Bool) : Call (.allow serviceID) rows (.ok ok) rows

/-! ### The service -/

/-- What a `Create` is asked for, and what it draws: random bytes, the hash of the key
(bcrypt draws a salt), an id and the time. -/
structure Issue where
  environmentID : UUID
  name : String
  randomBytes : List UInt8
  keyHash : String
  id : UUID
  now : Time

def Issue.rawKey (d : Issue) : String := generateProjectAPIKey "live" d.randomBytes

/-- The row that is inserted. -/
def Issue.row (d : Issue) (keyPrefix : List UInt8) : ApiKey where
  id := d.id
  environmentID := d.environmentID
  name := d.name
  keyPrefix := keyPrefix
  keyHash := d.keyHash
  scopes := some (.arr [.str "notifications:write"])
  status := "active"
  expiresAt := none
  lastUsedAt := none
  createdAt := d.now
  updatedAt := d.now

def invalidAPIKeyFormat : GoError := .other "invalid api key format"

/-- What the calls of the subsystem return. -/
structure AuthenticatedEnvironment where
  environmentID : UUID
  apiKeyID : UUID
  apiKey : String
  scopes : List String
  status : String

/-- The answer of the middleware: an error, or the request is passed on. -/
inductive Reply
  | refused (status : ℕ) (message : String)
  | served (auth : AuthenticatedEnvironment)

inductive Result
  | created (id : UUID) (key : String)
  | listed (keys : List ApiKey)
  | deleted
  | reply (r : Reply)

/-- `Service.Create`, with the prefix of the key that was generated. -/
def createUnder (d : Issue) : Option (List UInt8) → Act Result
  | none => fail invalidAPIKeyFormat
  | some keyPrefix => do
      perform (Op.createAPIKey (d.row keyPrefix))
      ret (.created d.id d.rawKey)

/-- `Service.Create`. -/
def create (d : Issue) : Act Result := createUnder d (apiKeyPrefix d.rawKey)

/-- `Service.List`. -/
def list (environmentID : UUID) : Act Result := do
  let rows ← perform (Op.listAPIKeysByEnvironment environmentID)
  ret (.listed rows)

/-- `Service.Delete`. -/
def delete (environmentID keyID : UUID) : Act Result := do
  let keys ← perform (Op.listAPIKeysByEnvironment environmentID)
  if keys.any fun k => k.id == keyID then do
    perform (Op.deleteAPIKey keyID)
    ret .deleted
  else fail (.other ("not found: " ++ keyID.toString))

/-! ### The middleware -/

/-- A request with its `Authorization` header, and the two times at which the clock is
looked at. -/
structure ApiRequest where
  header : String
  now : Time
  touched : Time

/-- The key in a header. -/
def keyOf (header : String) : String := trimSpace (String.ofList (header.toList.drop 7))

def isUsableAPIKeyStatus (status : String) : Bool := status == "active" || status == "rotating"

/-- `decodeScopes`. -/
def decodeScopes (raw : Option Json) : Except DecodeError (List String) :=
  match raw with
  | none => .ok []
  | some v => v.toStrList

section Middleware

variable (compare : String → String → Bool)

/-- `CompareAPIKeyHash`: bcrypt is a parameter. -/
def compareAPIKeyHash (apiKey hash : String) : Bool :=
  apiKey != "" && hash != "" && compare hash apiKey

/-- What is checked of a row: the scopes, or the answer. -/
def check (apiKey : String) (now : Time) (keyRecord : ApiKey) : Except Reply (List String) :=
  if !compareAPIKeyHash compare apiKey keyRecord.keyHash then
    .error (.refused 401 "invalid environment api key")
  else if !isUsableAPIKeyStatus keyRecord.status then
    .error (.refused 401 "inactive environment api key")
  else if keyRecord.expiresAt.any fun expiresAt => expiresAt ≤ now then
    .error (.refused 401 "expired environment api key")
  else match decodeScopes keyRecord.scopes with
    | .error _ => .error (.refused 500 "invalid api key scopes")
    | .ok scopes =>
        if scopes.contains "notifications:write" then .ok scopes
        else .error (.refused 403 "insufficient api key scope")

/-- The end of the middleware: the limit, and the note that the key was used. -/
def letThrough (touched : Time) (keyRecord : ApiKey) (scopes : List String) : Act Reply := do
  let allowed ← ask (Op.allow keyRecord.id.toString)
  match allowed with
  | .error _ => ret (.refused 500 "rate limiter unavailable")
  | .ok false => ret (.refused 429 "rate limit exceeded")
  | .ok true => do
      let noted ← ask (Op.touchAPIKeyLastUsed keyRecord.id touched)
      match noted with
      | .error _ => ret (.refused 500 "failed to update api key activity")
      | .ok _ => ret (.served ⟨keyRecord.environmentID, keyRecord.id, keyRecord.name, scopes,
          keyRecord.status⟩)

/-- What follows the checks. -/
def checked (touched : Time) (keyRecord : ApiKey) : Except Reply (List String) → Act Reply
  | .error reply => ret reply
  | .ok scopes => letThrough touched keyRecord scopes

/-- What follows the lookup. -/
def lookedUp (r : ApiRequest) : Except GoError ApiKey → Act Reply
  | .error _ => ret (.refused 401 "invalid environment api key")
  | .ok keyRecord =>
      checked r.touched keyRecord (check compare (keyOf r.header) r.now keyRecord)

/-- `handleEnvironmentAPIKey`, with the prefix of the key. -/
def handleEnvironmentAPIKey (r : ApiRequest) : Option (List UInt8) → Act Reply
  | none => ret (.refused 401 "invalid environment api key")
  | some keyPrefix => do
      let found ← ask (Op.getAPIKeyByPrefix keyPrefix)
      lookedUp compare r found

/-- `newAuthMiddleware`. -/
def authenticate (r : ApiRequest) : Act Reply :=
  if r.header = "" then ret (.refused 401 "missing api key")
  else if !"Bearer ".toList.isPrefixOf r.header.toList then
    ret (.refused 401 "invalid authorization header")
  else handleEnvironmentAPIKey compare r (apiKeyPrefix (keyOf r.header))

end Middleware

/-! ### The system -/

/-- What is going on. -/
inductive Request
  | create (d : Issue)
  | list (environmentID : UUID)
  | delete (environmentID keyID : UUID)
  | api (r : ApiRequest)

/-- No NUL: `net/http` takes no such header. -/
def NulFree (s : String) : Prop := '\x00' ∉ s.toList

section System

variable (compare : String → String → Bool)

/-- The program of a request. -/
def Request.program : Request → Act Result
  | .create d => ApiKeys.create d
  | .list environmentID => ApiKeys.list environmentID
  | .delete environmentID keyID => ApiKeys.delete environmentID keyID
  | .api r => do
      let reply ← authenticate compare r
      ret (.reply reply)

/-- What is drawn is as it should be: 32 bytes, and a hash its key fits; and a header is one. -/
def Request.Drawn : Request → Prop
  | .create d => d.randomBytes.length = 32 ∧ compareAPIKeyHash compare d.rawKey d.keyHash = true
  | .api r => NulFree r.header
  | _ => True

/-- The system: requests come in and are worked on, and any of them may be lost. -/
def keys : Machine (List ApiKey) Request Empty Op.Res GoError Result where
  body := Request.program compare
  spawn l w w' := w' = w ∧ l.Drawn compare
  sem := Call
  close _ _ w w' := w' = w
  lose _ w w' := w' = w
  env ev _ _ := ev.elim

/-- No key fits a hash but the one that was hashed, as long as it is shorter than the 72
bytes bcrypt looks at. -/
def OneKey : Prop :=
  ∀ hash k k', (bytesOf k).length < 72 → NulFree k → NulFree k' → compare hash k = true →
    compare hash k' = true → k = k'

end System

/-- No keys yet, and nothing going on. -/
def idle : Pool (List ApiKey) Request Op.Res GoError Result := ⟨[], fun _ => none⟩

/-! ### The text of a generated key -/

theorem rawKey_toList (d : Issue) :
    d.rawKey.toList = "nk_live_".toList ++ rawURLEncode d.randomBytes := by
  rw [Issue.rawKey, generateProjectAPIKey, String.toList_append, String.toList_append,
    String.toList_append, @String.toList_ofList (rawURLEncode d.randomBytes)]
  rfl

/-- No byte is dropped. -/
theorem length_le_rawURLEncode (bytes : List UInt8) :
    bytes.length ≤ (rawURLEncode bytes).length := by
  rw [rawURLEncode, List.length_map]
  have hkeep : ∀ n < 64, ∀ cs : List Char, (Base64.digit n :: cs).filter (· != '=') =
      Base64.digit n :: cs.filter (· != '=') := by
    intro n hn cs
    apply List.filter_cons_of_pos
    exact bne_iff_ne.mpr (Base64.digit_ne_pad hn)
  induction bytes using Base64.encodeChars.induct with
  | case1 => exact Nat.le_refl 0
  | case2 a =>
      have ha := a.toNat_lt
      rw [Base64.encodeChars, hkeep _ (by omega), hkeep _ (by omega)]
      simp
  | case3 a b =>
      have ha := a.toNat_lt
      have hb := b.toNat_lt
      rw [Base64.encodeChars, hkeep _ (by omega), hkeep _ (by omega), hkeep _ (by omega)]
      simp
  | case4 a b c rest ih =>
      have ha := a.toNat_lt
      have hb := b.toNat_lt
      have hc := c.toNat_lt
      rw [Base64.encodeChars, hkeep _ (by omega), hkeep _ (by omega), hkeep _ (by omega),
        hkeep _ (by omega)]
      simp only [List.length_cons]
      omega

/-- Three bytes are four characters. -/
theorem length_rawURLEncode_le (bytes : List UInt8) :
    3 * (rawURLEncode bytes).length ≤ 4 * bytes.length + 8 := by
  have hfilter := List.length_filter_le (· != '=') (Base64.encodeChars bytes)
  have hchars : 3 * (Base64.encodeChars bytes).length ≤ 4 * bytes.length + 8 := by
    induction bytes using Base64.encodeChars.induct with
    | case1 => simp [Base64.encodeChars]
    | case2 a => simp [Base64.encodeChars]
    | case3 a b => simp [Base64.encodeChars]
    | case4 a b c rest ih =>
        have := ih (List.length_filter_le _ _)
        simp only [Base64.encodeChars, List.length_cons]
        omega
  rw [rawURLEncode, List.length_map]
  omega

/-- The characters a key can have: each is one byte, and none is NUL. -/
def plainChar (c : Char) : Bool := (String.utf8EncodeChar c).length == 1 && c != '\x00'

theorem mem_rawURLEncode {bytes : List UInt8} {c : Char} (h : c ∈ rawURLEncode bytes) :
    c ∈ Base64.alphabet.map urlChar := by
  obtain ⟨c', hc', rfl⟩ := List.mem_map.mp h
  obtain ⟨hmem, hpad⟩ := List.mem_filter.mp hc'
  apply List.mem_map_of_mem
  exact List.mem_of_ne_of_mem (bne_iff_ne.mp hpad) (Base64.mem_encodeChars hmem)

theorem plain_rawURLEncode {bytes : List UInt8} {c : Char} (h : c ∈ rawURLEncode bytes) :
    plainChar c = true := by
  have hall : (Base64.alphabet.map urlChar).all plainChar = true := by decide +kernel
  exact List.all_eq_true.mp hall c (mem_rawURLEncode h)

theorem plain_rawKey {d : Issue} {c : Char} (h : c ∈ d.rawKey.toList) : plainChar c = true := by
  rw [rawKey_toList] at h
  rcases List.mem_append.mp h with h | h
  · have hall : "nk_live_".toList.all plainChar = true := by decide +kernel
    exact List.all_eq_true.mp hall c h
  · exact plain_rawURLEncode h

/-- A plain character is one byte. -/
theorem length_bytesOf {s : String} (h : ∀ c ∈ s.toList, plainChar c = true) :
    (bytesOf s).length = s.toList.length := by
  have hone : ∀ cs : List Char, (∀ c ∈ cs, plainChar c = true) →
      (cs.flatMap String.utf8EncodeChar).length = cs.length := by
    intro cs
    induction cs with
    | nil => intro _; rfl
    | cons c cs ih =>
        intro hcs
        have hc := hcs c (List.mem_cons_self ..)
        rw [plainChar, Bool.and_eq_true, beq_iff_eq] at hc
        rw [List.flatMap_cons, List.length_append, hc.1, List.length_cons,
          ih fun c hc => hcs c (List.mem_cons_of_mem _ hc), Nat.add_comm]
  exact hone _ h

theorem nulFree_rawKey (d : Issue) : NulFree d.rawKey := by
  intro hmem
  have h := plain_rawKey hmem
  rw [plainChar, Bool.and_eq_true, bne_iff_ne] at h
  exact h.2 rfl

theorem length_rawKey (d : Issue) (h : d.randomBytes.length = 32) :
    40 ≤ (bytesOf d.rawKey).length ∧ (bytesOf d.rawKey).length < 72 := by
  have hlow := length_le_rawURLEncode d.randomBytes
  have hhigh := length_rawURLEncode_le d.randomBytes
  have hlive : "nk_live_".toList.length = 8 := rfl
  rw [length_bytesOf fun c hc => plain_rawKey hc, rawKey_toList, List.length_append, hlive]
  omega

/-- A generated key has a prefix. -/
theorem apiKeyPrefix_rawKey (d : Issue) (h : d.randomBytes.length = 32) :
    apiKeyPrefix d.rawKey = some ((bytesOf d.rawKey).take 16) := by
  have hlen := (length_rawKey d h).1
  have hne : rawURLEncode d.randomBytes ≠ [] := by
    intro hnil
    have hlow := length_le_rawURLEncode d.randomBytes
    rw [hnil, List.length_nil] at hlow
    omega
  have hsplit : splitN '_' 2 d.rawKey.toList =
      ["nk".toList, "live".toList, rawURLEncode d.randomBytes] := by
    rw [rawKey_toList]
    rfl
  have hstart : "nk_".toList.isPrefixOf d.rawKey.toList = true := by
    rw [rawKey_toList]
    rfl
  have hshort : ¬ (bytesOf d.rawKey).length < apiKeyLookupPrefixLength :=
    Nat.not_lt.mpr (Nat.le_trans (by decide) hlen)
  rw [apiKeyPrefix, hstart, hsplit]
  rw [Bool.not_true, if_neg Bool.false_ne_true, if_neg hshort]
  show (if ("live".toList.isEmpty || (rawURLEncode d.randomBytes).isEmpty) = true then none
    else some _) = _
  rw [List.isEmpty_eq_false_iff.mpr hne]
  rfl

/-- The header a client makes of a key is read back. -/
theorem keyOf_bearer (d : Issue) : keyOf ("Bearer " ++ d.rawKey) = d.rawKey := by
  have hdrop : ("Bearer " ++ d.rawKey).toList.drop 7 = d.rawKey.toList := by
    rw [String.toList_append]
    rfl
  rw [keyOf, hdrop, String.ofList_toList]
  apply trimSpace_eq_self
  intro c hc
  have hspaces : ("nk_live_".toList ++ Base64.alphabet.map urlChar).all
      (fun c => !isSpace c) = true := by decide +kernel
  have hmem : c ∈ "nk_live_".toList ++ Base64.alphabet.map urlChar := by
    rw [rawKey_toList] at hc
    rcases List.mem_append.mp hc with hc | hc
    · exact List.mem_append_left _ hc
    · exact List.mem_append_right _ (mem_rawURLEncode hc)
  have h := List.all_eq_true.mp hspaces c hmem
  rwa [Bool.not_eq_true'] at h

/-! ### What a request does -/

/-- The middleware looks up, asks the limiter and notes; it neither makes nor deletes keys. -/
def Reads : Op → Prop
  | .getAPIKeyByPrefix _ => True
  | .allow _ => True
  | .touchAPIKeyLastUsed _ _ => True
  | _ => False

/-- The statements of a request. -/
def Request.Makes : Request → Op → Prop
  | .create d, op => ∃ p, apiKeyPrefix d.rawKey = some p ∧ op = .createAPIKey (d.row p)
  | .list e, op => op = .listAPIKeysByEnvironment e
  | .delete e id, op => op = .listAPIKeysByEnvironment e ∨ op = .deleteAPIKey id
  | .api _, op => Reads op

/-- One row is another, used since. -/
def ApiKey.Used (row row' : ApiKey) : Prop :=
  row' = { row with lastUsedAt := row'.lastUsedAt, updatedAt := row'.updatedAt }

section Requests

variable {compare : String → String → Bool}

theorem calls_admit (touched : Time) (row : ApiKey) (scopes : List String) :
    Calls Reads (letThrough touched row scopes) := by
  refine ⟨True.intro, ?_⟩
  rintro (e | - | -)
  · exact True.intro
  · exact True.intro
  · refine ⟨True.intro, ?_⟩
    rintro (e | -)
    · exact True.intro
    · exact True.intro

theorem lookedUp_ok (r : ApiRequest) (row : ApiKey) :
    lookedUp compare r (.ok row) =
      checked r.touched row (check compare (keyOf r.header) r.now row) := rfl

theorem handle_some (r : ApiRequest) (p : List UInt8) :
    handleEnvironmentAPIKey compare r (some p) =
      (ask (Op.getAPIKeyByPrefix p) >>= lookedUp compare r) := rfl

theorem calls_checked (touched : Time) (row : ApiKey) (c : Except Reply (List String)) :
    Calls Reads (checked touched row c) := by
  rcases c with reply | scopes
  · exact True.intro
  · exact calls_admit ..

/-- The statements of a request with a key. -/
theorem calls_authenticate (r : ApiRequest) : Calls Reads (authenticate compare r) := by
  rw [authenticate]
  split_ifs
  · exact True.intro
  · exact True.intro
  · rcases apiKeyPrefix (keyOf r.header) with - | p
    · exact True.intro
    · rw [handle_some]
      apply (calls_ask True.intro).bind
      rintro (e | row)
      · exact True.intro
      · rw [lookedUp_ok]
        -- the checks stay folded
        generalize check compare (keyOf r.header) r.now row = c
        exact calls_checked r.touched row c

theorem calls_createUnder {d : Issue} {keyPrefix : Option (List UInt8)}
    (h : apiKeyPrefix d.rawKey = keyPrefix) :
    Calls (Request.create d).Makes (createUnder d keyPrefix) := by
  rcases keyPrefix with - | p
  · exact True.intro
  · exact ⟨⟨p, h, rfl⟩, fun r => by rcases r with e | u <;> exact True.intro⟩

/-- Every request makes its own statements only. -/
theorem calls_program (l : Request) : Calls l.Makes (l.program compare) := by
  cases l with
  | create d => exact calls_createUnder rfl
  | list e => exact ⟨rfl, fun r => by rcases r with e | rows <;> exact True.intro⟩
  | delete e id =>
      refine ⟨Or.inl rfl, ?_⟩
      rintro (e | rows)
      · exact True.intro
      · show Calls _ (if (rows.any fun k => k.id == id) = true then _ else _)
        split_ifs
        · exact ⟨Or.inr rfl, fun r => by rcases r with e | u <;> exact True.intro⟩
        · exact True.intro
  | api r => exact (calls_authenticate r).bind fun _ => True.intro

/-- A create that is about to insert has done nothing else. -/
theorem nil_of_create {d : Issue} {tr arg k}
    (h : After (create d) tr (.call (.createAPIKey arg) k)) : tr = [] := by
  rw [create] at h
  rcases hp : apiKeyPrefix d.rawKey with - | p <;> rw [hp] at h
  · cases h.fail_inv
  · rcases h.call_inv with ⟨rfl, -⟩ | ⟨r, tr', rfl, hafter⟩
    · rfl
    · rcases r with e | u <;> cases hafter

/-- A delete that is about to delete has found the key among those of its environment. -/
theorem listed_of_delete {environmentID id id' : UUID} {tr k}
    (h : After (delete environmentID id) tr (.call (.deleteAPIKey id') k)) :
    ∃ rows, tr = [⟨.listAPIKeysByEnvironment environmentID, .ok rows⟩] ∧
      ∃ row ∈ rows, row.id = id' := by
  rcases h.call_inv with ⟨-, hcall⟩ | ⟨r, tr', rfl, hafter⟩
  · cases hcall
  rcases r with e | rows
  · cases hafter
  · change After (if (rows.any fun k => k.id == id) = true then _ else _) _ _ at hafter
    split_ifs at hafter with hany
    · rcases hafter.call_inv with ⟨rfl, hcall⟩ | ⟨r, tr', rfl, hrest⟩
      · cases hcall
        obtain ⟨row, hrow, hid⟩ := List.any_eq_true.mp hany
        exact ⟨rows, rfl, row, hrow, beq_iff_eq.mp hid⟩
      · rcases r with e | u <;> cases hrest
    · cases hafter

/-- A check that fails refuses the request. -/
theorem check_refuses {apiKey : String} {now : Time} {row : ApiKey} {reply : Reply}
    (h : check compare apiKey now row = .error reply) (auth : AuthenticatedEnvironment) :
    reply ≠ .served auth := by
  rintro rfl
  rw [check] at h
  split_ifs at h
  · cases h
  · cases h
  · cases h
  · split at h
    · cases h
    · split_ifs at h
      cases h

/-- A request that is let through found a row under the prefix of its key, the row passed the
checks, and the answer is about this row. -/
theorem path_served {r : ApiRequest} {tr auth}
    (h : Path (authenticate compare r) tr (.ok (.served auth))) :
    ∃ p row scopes, apiKeyPrefix (keyOf r.header) = some p ∧
      ⟨.getAPIKeyByPrefix p, .ok row⟩ ∈ tr ∧
      check compare (keyOf r.header) r.now row = .ok scopes ∧
      auth = ⟨row.environmentID, row.id, row.name, scopes, row.status⟩ := by
  rw [authenticate] at h
  split_ifs at h
  · cases (path_ret h).2
  · cases (path_ret h).2
  rcases hp : apiKeyPrefix (keyOf r.header) with - | p <;> rw [hp] at h
  · cases (path_ret h).2
  rw [handle_some] at h
  obtain ⟨found, tr₁, rfl, h₁⟩ := path_ask_bind h
  rcases found with e | row
  · cases (path_ret h₁).2
  rw [lookedUp_ok] at h₁
  rcases hcheck : check compare (keyOf r.header) r.now row with reply | scopes <;>
    rw [hcheck] at h₁
  · obtain ⟨-, hreply⟩ := path_ret h₁
    exact absurd (Except.ok.inj hreply).symm (check_refuses hcheck auth)
  refine ⟨p, row, scopes, rfl, List.mem_cons_self .., hcheck, ?_⟩
  obtain ⟨allowed, tr₂, rfl, h₂⟩ := path_ask_bind h₁
  rcases allowed with e | - | -
  · cases (path_ret h₂).2
  · cases (path_ret h₂).2
  obtain ⟨noted, tr₃, rfl, h₃⟩ := path_ask_bind h₂
  rcases noted with e | u
  · cases (path_ret h₃).2
  · cases (path_ret h₃).2
    rfl

/-- A create that returns has inserted its key. -/
theorem path_create {d : Issue} {tr out} (h : Path (create d) tr (.ok out)) :
    ∃ p, apiKeyPrefix d.rawKey = some p ∧ tr = [⟨.createAPIKey (d.row p), .ok ()⟩] ∧
      out = .created d.id d.rawKey := by
  rw [create] at h
  rcases hp : apiKeyPrefix d.rawKey with - | p <;> rw [hp] at h
  · exact absurd h not_path_fail
  · obtain ⟨u, tr', rfl, hret⟩ := path_perform_ok h
    obtain ⟨rfl, hout⟩ := path_ret hret
    exact ⟨p, rfl, rfl, Except.ok.inj hout⟩

/-- Only the middleware answers requests of programs. -/
theorem api_of_reply {l : Request} {tr reply}
    (h : Path (l.program compare) tr (.ok (.reply reply))) : ∃ r, l = .api r := by
  cases l with
  | create d =>
      obtain ⟨p, -, -, hout⟩ := path_create h
      cases hout
  | list e =>
      obtain ⟨rows, tr', -, hret⟩ := path_perform_ok h
      cases (path_ret hret).2
  | delete e id =>
      obtain ⟨rows, tr', -, hrest⟩ := path_perform_ok h
      split_ifs at hrest
      · obtain ⟨u, tr'', -, hret⟩ := path_perform_ok hrest
        cases (path_ret hret).2
      · exact absurd hrest not_path_fail
  | api r => exact ⟨r, rfl⟩

end Requests

/-! ### The table, statement by statement -/

theorem ApiKey.Used.refl (row : ApiKey) : row.Used row := rfl

theorem ApiKey.Used.trans {a b c : ApiKey} (hab : a.Used b) (hbc : b.Used c) : a.Used c := by
  rw [ApiKey.Used] at hab hbc
  rw [hab] at hbc
  exact hbc

/-- A row after a statement was inserted by it, or was there before. -/
theorem Call.mem {op : Op} {rows rows' : List ApiKey} {r : Except GoError op.Res}
    (h : Call op rows r rows') {row : ApiKey} (hrow : row ∈ rows') :
    op = .createAPIKey row ∨ ∃ old ∈ rows, old.Used row := by
  have hans : row ∈ (ApiKeys.answer op rows).2 →
      op = .createAPIKey row ∨ ∃ old ∈ rows, old.Used row := by
    intro hrow
    cases op with
    | createAPIKey arg =>
        rw [ApiKeys.answer] at hrow
        split_ifs at hrow
        · exact Or.inr ⟨row, hrow, .refl row⟩
        · rcases List.mem_append.mp hrow with hold | hnew
          · exact Or.inr ⟨row, hold, .refl row⟩
          · rw [List.mem_singleton.mp hnew]
            exact Or.inl rfl
    | getAPIKeyByPrefix p => exact Or.inr ⟨row, hrow, .refl row⟩
    | listAPIKeysByEnvironment e => exact Or.inr ⟨row, hrow, .refl row⟩
    | touchAPIKeyLastUsed id now =>
        obtain ⟨old, hold, rfl⟩ := List.mem_map.mp hrow
        refine Or.inr ⟨old, hold, ?_⟩
        split_ifs
        · exact rfl
        · exact .refl old
    | deleteAPIKey id => exact Or.inr ⟨row, (List.mem_filter.mp hrow).1, .refl row⟩
    | allow s => exact Or.inr ⟨row, hrow, .refl row⟩
  cases h with
  | answer => exact hans hrow
  | fault => exact Or.inr ⟨row, hrow, .refl row⟩
  | lost => exact hans hrow
  | allow => exact Or.inr ⟨row, hrow, .refl row⟩

/-- A row stays, unless it is deleted by its id. -/
theorem Call.mem_of_mem {op : Op} {rows rows' : List ApiKey} {r : Except GoError op.Res}
    (h : Call op rows r rows') {row : ApiKey} (hrow : row ∈ rows) :
    op = .deleteAPIKey row.id ∨ ∃ new ∈ rows', row.Used new := by
  have hans : op = .deleteAPIKey row.id ∨ ∃ new ∈ (ApiKeys.answer op rows).2, row.Used new := by
    cases op with
    | createAPIKey arg =>
        refine Or.inr ⟨row, ?_, .refl row⟩
        rw [ApiKeys.answer]
        split_ifs
        · exact hrow
        · exact List.mem_append_left _ hrow
    | getAPIKeyByPrefix p => exact Or.inr ⟨row, hrow, .refl row⟩
    | listAPIKeysByEnvironment e => exact Or.inr ⟨row, hrow, .refl row⟩
    | touchAPIKeyLastUsed id now =>
        refine Or.inr ⟨_, List.mem_map_of_mem hrow, ?_⟩
        split_ifs
        · exact rfl
        · exact .refl row
    | deleteAPIKey id =>
        by_cases hid : row.id = id
        · exact Or.inl (by rw [hid])
        · exact Or.inr ⟨row, List.mem_filter.mpr ⟨hrow, bne_iff_ne.mpr hid⟩, .refl row⟩
    | allow s => exact Or.inr ⟨row, hrow, .refl row⟩
  cases h with
  | answer => exact hans
  | fault => exact Or.inr ⟨row, hrow, .refl row⟩
  | lost => exact hans
  | allow => exact Or.inr ⟨row, hrow, .refl row⟩

/-- What is looked up is there, under the prefix. -/
theorem Call.found {p : List UInt8} {rows rows' : List ApiKey} {row : ApiKey}
    (h : Call (.getAPIKeyByPrefix p) rows (.ok row) rows') : row ∈ rows ∧ row.keyPrefix = p := by
  generalize hr : (Except.ok row : Except GoError (Op.getAPIKeyByPrefix p).Res) = r at h
  cases h with
  | answer =>
      change Except.ok row = Store.orNoRows (rows.find? fun row => row.keyPrefix == p) at hr
      rcases hfind : rows.find? fun row => row.keyPrefix == p with - | row'
      · rw [hfind] at hr
        cases hr
      · rw [hfind] at hr
        cases hr
        exact ⟨List.mem_of_find?_eq_some hfind, beq_iff_eq.mp (List.find?_some hfind :)⟩
  | fault => cases hr
  | lost => cases hr

/-- What is listed is there, and of the environment. -/
theorem Call.listed {e : UUID} {rows rows' list : List ApiKey}
    (h : Call (.listAPIKeysByEnvironment e) rows (.ok list) rows') {row : ApiKey}
    (hrow : row ∈ list) : row ∈ rows ∧ row.environmentID = e := by
  generalize hr : (Except.ok list : Except GoError (Op.listAPIKeysByEnvironment e).Res) = r at h
  cases h with
  | answer =>
      cases hr
      obtain ⟨hmem, he⟩ := List.mem_filter.mp hrow
      exact ⟨hmem, beq_iff_eq.mp he⟩
  | fault => cases hr
  | lost => cases hr

/-- A deleted key is gone. -/
theorem Call.deleted {id : UUID} {rows rows' : List ApiKey}
    (h : Call (.deleteAPIKey id) rows (.ok ()) rows') : ∀ row ∈ rows', row.id ≠ id := by
  generalize hr : (Except.ok () : Except GoError (Op.deleteAPIKey id).Res) = r at h
  cases h with
  | answer => exact fun row hrow => bne_iff_ne.mp (List.mem_filter.mp hrow).2
  | fault => cases hr
  | lost => cases hr

/-- A key that was inserted is there. -/
theorem Call.created {arg : ApiKey} {rows rows' : List ApiKey}
    (h : Call (.createAPIKey arg) rows (.ok ()) rows') : arg ∈ rows' := by
  generalize hr : (Except.ok () : Except GoError (Op.createAPIKey arg).Res) = r at h
  cases h with
  | answer =>
      rw [ApiKeys.answer] at hr ⊢
      split_ifs at hr ⊢
      cases hr
      exact List.mem_append_right _ (List.mem_singleton_self _)
  | fault => cases hr
  | lost => cases hr

end Iwifunni.Auth.ApiKeys
