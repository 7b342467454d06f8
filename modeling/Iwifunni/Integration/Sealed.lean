/-
Iwifunni/Integration/Sealed.lean

The way of the credentials from the client to the provider.

    Create     normalize → encrypt → base64 → quotation marks → column `credentials`
    a send     column `credentials` → string → base64 → decrypt → merged into the config

The two ends are in different modules of the service (`integration`, `notification`), and
what tells sealed credentials from none is the shape of the column: a string or an object.
AES-GCM is a parameter, which works on documents: `json.Marshal` before and
`json.Unmarshal` after it are part of it.
-/
import Iwifunni.Go.Base64
import Iwifunni.Integration.Resaved
import Iwifunni.Notification.Delivery

namespace Iwifunni.Integration

open Go Db Effect Effect.Prog Store

/-! ### Encryption (`crypto.go`) -/

/-- AES-256-GCM under a key, with a nonce. -/
structure Cipher where
  gcmSeal : String → List UInt8 → Json → List UInt8
  gcmOpen : String → List UInt8 → List UInt8 → Option Json

/-- `gcm.NonceSize()`. -/
def nonceSize : ℕ := 12

namespace Cipher

/-- `Encrypt`: the nonce and the ciphertext, in base64. -/
def encrypt (c : Cipher) (plaintext : Json) (key : String) (nonce : List UInt8) : String :=
  Base64.encodeToString (nonce ++ c.gcmSeal key nonce plaintext)

/-- `Decrypt`. -/
def decrypt (c : Cipher) (encoded key : String) : Except String Json :=
  match Base64.decodeString encoded with
  | none => .error "illegal base64 data"
  | some data =>
      if data.length < nonceSize then .error "ciphertext too short"
      else match c.gcmOpen key (data.take nonceSize) (data.drop nonceSize) with
        | some plaintext => .ok plaintext
        | none => .error "cipher: message authentication failed"

variable {c : Cipher} {key : String} {nonce : List UInt8} {v : Json}

/-- **Decrypting undoes encrypting** if the cipher does. -/
theorem decrypt_encrypt (hnonce : nonce.length = nonceSize)
    (hgcm : c.gcmOpen key nonce (c.gcmSeal key nonce v) = some v) :
    c.decrypt (c.encrypt v key nonce) key = .ok v := by
  have hshort : ¬ (nonce ++ c.gcmSeal key nonce v).length < nonceSize := by
    rw [List.length_append]
    omega
  unfold decrypt encrypt
  rw [Base64.decodeString_encodeToString]
  dsimp only
  rw [if_neg hshort, List.take_left' hnonce, List.drop_left' hnonce, hgcm]

/-- The characters of base64 stand for themselves in a literal, and are not space. -/
theorem plain_base64 {ch : Char} (h : ch ∈ '=' :: Base64.alphabet) :
    Plain ch ∧ isSpace ch = false := by
  have hall : ('=' :: Base64.alphabet).all (fun ch => ch != '"' && ch != '\\' &&
      decide (0x20 ≤ ch.toNat) && !isSpace ch) = true := by
    decide +kernel
  have hch := List.all_eq_true.mp hall ch h
  simp only [Bool.and_eq_true, bne_iff_ne, ne_eq, decide_eq_true_eq, Bool.not_eq_true'] at hch
  exact ⟨⟨hch.1.1.1, hch.1.1.2, hch.1.2⟩, hch.2⟩

theorem mem_encrypt {ch : Char} (h : ch ∈ (c.encrypt v key nonce).toList) :
    Plain ch ∧ isSpace ch = false := by
  rw [encrypt, Base64.encodeToString, String.toList_ofList] at h
  exact plain_base64 (Base64.mem_encodeChars h)

/-- The column holds the encrypted credentials. -/
theorem sealed_encrypt :
    sealed (fun v => .ok (c.encrypt v key nonce)) v = .ok (.str (c.encrypt v key nonce)) := by
  unfold sealed
  dsimp only [except_ok_bind]
  rw [unquote_quoted fun ch hch => (mem_encrypt hch).1]
  rfl

/-- What is encrypted is not blank. -/
theorem trimSpace_encrypt (hnonce : nonce.length = nonceSize) :
    trimSpace (c.encrypt v key nonce) ≠ "" := by
  have hne : nonce ++ c.gcmSeal key nonce v ≠ [] := by
    rw [ne_eq, List.append_eq_nil_iff, not_and_or, ← List.length_eq_zero_iff, hnonce]
    exact Or.inl (by decide)
  rw [trimSpace_eq_self fun ch hch => (mem_encrypt hch).2]
  intro hempty
  refine Base64.encodeChars_ne_nil hne ?_
  rw [encrypt, Base64.encodeToString] at hempty
  rw [← String.toList_ofList (l := Base64.encodeChars _), hempty]
  rfl

end Cipher

/-! ### The row that `Create` writes -/

variable {parseAddress : String → Bool} {input : CreateInput} {n : NormalizedInput}
  {encrypt : Encrypt} {w w' : World} {tr : List (Answered Op.Res GoError)} {row : Db.Integration}

/-- An INSERT returns the row it has inserted. -/
theorem call_createIntegration {arg : Db.Integration} {r : Except GoError Db.Integration}
    (h : Call (.createIntegration arg) w r w') (hr : r = .ok row) : row = arg := by
  cases h with
  | answer =>
      simp only [World.answer] at hr
      split at hr
      · cases hr
        rfl
      · cases hr
  | fault => cases hr

/-- The end of `Create`: the documents are inserted as they are. -/
theorem insert_row {environmentID : UUID} {name channel : String} {credentials : Json}
    {config : Option Json}
    (h : Runs Call (perform (Op.listByChannel environmentID channel) >>= fun existing =>
      perform Op.newUUID >>= fun id => perform (Op.createIntegration {
        id := id
        environmentID := environmentID
        name := name
        channel := channel
        credentials := some credentials
        config := config
        isActive := !existing.any fun row => row.isActive
        isPrimary := !existing.any fun row => row.isActive })) w tr (ofExcept (.ok row)) w') :
    row.name = name ∧ row.config = config ∧ row.credentials = some credentials := by
  rcases runs_perform_bind h with ⟨e, -, -, he⟩ | ⟨existing, w₁, tr₁, -, -, h⟩
  · cases he
  rcases runs_perform_bind h with ⟨e, -, -, he⟩ | ⟨id, w₂, tr₂, -, -, h⟩
  · cases he
  rw [call_createIntegration (runs_perform h) rfl]
  exact ⟨rfl, rfl, rfl⟩

/-- The row has the normalized config, and the sealed credentials or none. -/
theorem create_row
    (hn : prepareProviderInput parseAddress input.name input.channel input.credentials input.config
      none = .ok n)
    (h : Runs Call (create parseAddress encrypt input) w tr (ofExcept (.ok row)) w') :
    row.name = n.name ∧ row.config = n.configJSON ∧
      (n.credentialsJSON = none → row.credentials = some (.obj [])) ∧
      ∀ v, n.credentialsJSON = some v → ∃ column, sealed encrypt v = .ok column ∧
        row.credentials = some column := by
  unfold create at h
  rw [hn, ofExcept_ok, ret_bind] at h
  rcases hc : n.credentialsJSON with - | v
  · rw [hc] at h
    obtain ⟨hname, hconfig, hcredentials⟩ := insert_row h
    exact ⟨hname, hconfig, fun _ => hcredentials, fun v hv => by cases hv⟩
  · rw [hc] at h
    rcases hs : sealed encrypt v with e | column
    · dsimp only at h
      rw [hs] at h
      obtain ⟨-, hout, -⟩ := runs_fail h
      cases hout
    · dsimp only at h
      rw [hs] at h
      obtain ⟨hname, hconfig, hcredentials⟩ := insert_row h
      refine ⟨hname, hconfig, fun hnone => (by cases hnone), fun v' hv => ?_⟩
      cases hv
      exact ⟨column, hs, hcredentials⟩

/-! ### The config of a send -/

section Read

variable {s : Notification.Service} {encrypted : String} {credentials config : Fields}

/-- Credentials that can be read are merged into the config. -/
theorem buildProjectProviderConfig_sealed (hcredentials : row.credentials = some (.str encrypted))
    (hblank : trimSpace encrypted ≠ "") (hkey : trimSpace s.encryptionKey ≠ "")
    (hdecrypt : s.decrypt encrypted s.encryptionKey = .ok (.obj credentials))
    (hconfig : row.config = some (.obj config)) :
    Notification.buildProjectProviderConfig s row = .ok (some (.obj
      (credentials.foldl (fun merged f => Json.insert merged f.1 f.2) config))) := by
  unfold Notification.buildProjectProviderConfig
  rw [hcredentials]
  dsimp only [Json.unmarshal, Json.toStr]
  rw [if_neg hblank, if_neg hkey, hdecrypt]
  dsimp only
  rw [hconfig]
  rfl

/-- There are no credentials to merge: the column is empty, an object or blank. -/
def Unsealed (row : Db.Integration) : Prop :=
  row.credentials = none ∨ (∃ fields, row.credentials = some (.obj fields)) ∨
    ∃ text, row.credentials = some (.str text) ∧ trimSpace text = ""

/-- A row without a seal is used as it is. -/
theorem buildProjectProviderConfig_unsealed (h : Unsealed row) :
    Notification.buildProjectProviderConfig s row = .ok row.config := by
  unfold Notification.buildProjectProviderConfig
  rcases h with hnone | ⟨fields, hobj⟩ | ⟨text, hstr, hblank⟩
  · rw [hnone]
    rfl
  · rw [hobj]
    rfl
  · rw [hstr]
    dsimp only [Json.unmarshal, Json.toStr]
    rw [if_pos hblank]

end Read

/-! ### What is normalized on creation -/

/-- The providers without credentials. -/
def demoNames : List String := ["demo-email", "demo-sms"]

/-- Both documents are objects. -/
def TwoObjects (n : NormalizedInput) : Prop :=
  (∃ fields, n.credentialsJSON = some (.obj fields)) ∧ ∃ fields, n.configJSON = some (.obj fields)

section Normalized

variable {credentials config : Fields} {v : Option Json}

theorem normalizeStringMapCredentials_obj {message : String} {keys : List String}
    (h : normalizeStringMapCredentials credentials none message keys = .ok v) :
    ∃ fields, v = some (.obj fields) := by
  unfold normalizeStringMapCredentials at h
  split at h
  · cases h
  · split at h
    · cases h
    · cases h
      exact ⟨_, rfl⟩

theorem normalizeTwilioCredentials_obj (h : normalizeTwilioCredentials credentials none = .ok v) :
    ∃ fields, v = some (.obj fields) := by
  unfold normalizeTwilioCredentials at h
  dsimp only at h
  split at h
  · cases h
  · split at h
    · cases h
      exact ⟨_, rfl⟩
    · cases h

theorem normalizeBrevoCredentials_obj (h : normalizeBrevoCredentials credentials none = .ok v) :
    ∃ fields, v = some (.obj fields) := by
  unfold normalizeBrevoCredentials at h
  dsimp only at h
  split at h
  · cases h
  · split at h
    · cases h
    · cases h
      exact ⟨_, rfl⟩

/-- The credentials that are stored are an object. -/
theorem normalizeSendGridCredentials_obj
    (h : normalizeSendGridCredentials credentials none = .ok v) : ∃ fields, v = some (.obj fields) := by
  unfold normalizeSendGridCredentials at h
  dsimp only at h
  split at h
  · cases h
  · split at h
    · split at h
      · cases h
      · cases h
        exact ⟨_, rfl⟩
    · cases h

theorem normalizeBrevoEmailConfig_obj
    (h : normalizeBrevoEmailConfig parseAddress config none = .ok v) :
    ∃ fields, v = some (.obj fields) := by
  unfold normalizeBrevoEmailConfig at h
  dsimp only at h
  split at h
  · cases h
  · split at h
    · cases h
      exact ⟨_, rfl⟩
    · cases h

theorem normalizeSender_obj {name key message : String} {keys : List String}
    (h : normalizeSender name key message keys config none = .ok v) :
    ∃ fields, v = some (.obj fields) := by
  obtain ⟨sender, hv⟩ := normalizeSender_ok h
  exact ⟨_, hv⟩

/-- The push providers store two objects. -/
theorem twoObjects_push {name message : String} {keys : List String}
    (h : (pushDefinition name message keys).normalize credentials config none = .ok n) :
    TwoObjects n := by
  dsimp only [pushDefinition] at h
  rcases hc : normalizeStringMapCredentials credentials none message keys with e | v
  · rw [hc] at h
    cases h
  · rw [hc] at h
    cases h
    exact ⟨normalizeStringMapCredentials_obj hc, _, rfl⟩

/-- The demo provider has no credentials. -/
theorem noCredentials_demoEmail
    (h : (demoEmail parseAddress).normalize credentials config none = .ok n) :
    n.credentialsJSON = none := by
  dsimp only [demoEmail] at h
  rcases hc : normalizeOwner parseAddress config none with e | v
  · rw [hc] at h
    cases h
  · rw [hc] at h
    cases h
    rfl

/-- A provider has two objects to store, or is a demo and has no credentials. -/
theorem twoObjects_or_demo {d : Definition} (hd : d ∈ newCatalog parseAddress)
    (h : d.normalize credentials config none = .ok n) :
    (d.name ∉ demoNames ∧ TwoObjects n) ∨ (d.name ∈ demoNames ∧ n.credentialsJSON = none) := by
  simp only [newCatalog, List.mem_cons, List.not_mem_nil, or_false] at hd
  rcases hd with rfl | rfl | rfl | rfl | rfl | rfl | rfl | rfl | rfl | rfl
  · obtain ⟨-, -, hc, hf⟩ := documents_ok h
    obtain ⟨fromEmail, hv, -⟩ := normalizeSendGridConfig_ok hf
    exact Or.inl ⟨show "sendgrid" ∉ demoNames by decide, normalizeSendGridCredentials_obj hc, _, hv⟩
  · obtain ⟨-, -, hc, hf⟩ := documents_ok h
    exact Or.inl ⟨show "brevo" ∉ demoNames by decide, normalizeBrevoCredentials_obj hc,
      normalizeBrevoEmailConfig_obj hf⟩
  · obtain ⟨-, -, hc, hf⟩ := documents_ok h
    exact Or.inl ⟨by decide, normalizeBrevoCredentials_obj hc, normalizeSender_obj hf⟩
  · obtain ⟨-, -, hc, hf⟩ := documents_ok h
    obtain ⟨host, port, fromEmail, hv⟩ := normalizeSMTPConfig_ok hf
    exact Or.inl ⟨show "smtp" ∉ demoNames by decide, normalizeStringMapCredentials_obj hc, _, hv⟩
  · obtain ⟨-, -, hc, hf⟩ := documents_ok h
    exact Or.inl ⟨by decide, normalizeStringMapCredentials_obj hc, normalizeSender_obj hf⟩
  · obtain ⟨-, -, hc, hf⟩ := documents_ok h
    exact Or.inl ⟨by decide, normalizeTwilioCredentials_obj hc, normalizeSender_obj hf⟩
  · exact Or.inl ⟨by decide, twoObjects_push h⟩
  · exact Or.inl ⟨by decide, twoObjects_push h⟩
  · exact Or.inr ⟨show "demo-email" ∈ demoNames by decide, noCredentials_demoEmail h⟩
  · cases h
    exact Or.inr ⟨by decide, rfl⟩

end Normalized

/-! ### From the client to the provider -/

/-- What is prepared for a new row comes from a provider of the catalog. -/
theorem prepareProviderInput_normalize {name channel : String} {credentials config : Fields}
    (h : prepareProviderInput parseAddress name channel credentials config none = .ok n) :
    ∃ d ∈ newCatalog parseAddress, d.normalize credentials config none = .ok n ∧
      n.name = d.name := by
  unfold prepareProviderInput at h
  dsimp only at h
  rcases hd : catalogGet parseAddress (toLower (trimSpace name)) with - | d
  · rw [hd] at h
    cases h
  · rw [hd] at h
    dsimp only at h
    have hmem := List.mem_of_find?_eq_some hd
    split at h
    · cases h
    · exact ⟨d, hmem, h, (names_of_mem_newCatalog hmem _ _ _ _ h).1⟩

/-- The notification service, with the key and the cipher of the integration service. -/
def reader (s : Notification.Service) (c : Cipher) (key : String) : Notification.Service :=
  { s with decrypt := c.decrypt, encryptionKey := key }

variable {c : Cipher} {key : String} {nonce : List UInt8} {s : Notification.Service}

/-- **Stored credentials reach the provider.**  What a send reads from a row that
`Create` has written maps every key of the normalized credentials to its value and every
other key of the stored config to its value.  The demo providers have no credentials, and
without credentials the config is handed on as it is. -/
theorem credentials_reach_provider
    (hn : prepareProviderInput parseAddress input.name input.channel input.credentials input.config
      none = .ok n)
    (hkey : trimSpace key ≠ "") (hnonce : nonce.length = nonceSize)
    (hgcm : ∀ v, n.credentialsJSON = some v → c.gcmOpen key nonce (c.gcmSeal key nonce v) = some v)
    (hrow : Runs Call (create parseAddress (fun v => .ok (c.encrypt v key nonce)) input) w tr
      (ofExcept (.ok row)) w') :
    (n.name ∉ demoNames → ∃ credentials config merged,
      n.credentialsJSON = some (.obj credentials) ∧ row.config = some (.obj config) ∧
      Notification.buildProjectProviderConfig (reader s c key) row = .ok (some (.obj merged)) ∧
      ∀ k, Json.lookup merged k = (Json.lookup credentials k).or (Json.lookup config k)) ∧
    (n.name ∈ demoNames → Unsealed row) ∧
    ∀ row', Unsealed row' →
      Notification.buildProjectProviderConfig (reader s c key) row' = .ok row'.config := by
  obtain ⟨d, hd, hnormal, hname⟩ := prepareProviderInput_normalize hn
  obtain ⟨-, hconfig, hnone, hsome⟩ := create_row hn hrow
  refine ⟨fun hdemo => ?_, fun hdemo => ?_, fun row' h => buildProjectProviderConfig_unsealed h⟩
  · rcases twoObjects_or_demo hd hnormal with ⟨-, ⟨credentials, hc⟩, config, hf⟩ | ⟨hin, -⟩
    · obtain ⟨column, hsealed, hcolumn⟩ := hsome _ hc
      rw [Cipher.sealed_encrypt] at hsealed
      cases hsealed
      refine ⟨credentials, config, _, hc, hconfig.trans hf, ?_, Json.lookup_foldl_insert credentials config⟩
      exact buildProjectProviderConfig_sealed (s := reader s c key) hcolumn
        (Cipher.trimSpace_encrypt hnonce) hkey (Cipher.decrypt_encrypt hnonce (hgcm _ hc))
        (hconfig.trans hf)
    · exact absurd (hname ▸ hin) hdemo
  · rcases twoObjects_or_demo hd hnormal with ⟨hnot, -⟩ | ⟨-, hc⟩
    · exact absurd (hname ▸ hdemo) hnot
    · exact Or.inr (Or.inl ⟨[], hnone hc⟩)

namespace Sample

/-- A cipher for the example: it knows one document. -/
def oneDocument : Cipher where
  gcmSeal _ _ _ := [1, 2, 3]
  gcmOpen _ _ data := if data = [1, 2, 3] then
      some (stringMap [("api_key", "SG.1")]) else none

/-- SendGrid, as a client submits it. -/
def sendgridInput : CreateInput where
  environmentID := UUID.ofDigit 2
  name := "sendgrid"
  channel := "email"
  credentials := [("api_key", .str "SG.1")]
  config := [("from_email", .str "news@example.com")]

/-- A demo provider, submitted with credentials. -/
def demoInput : CreateInput where
  environmentID := UUID.ofDigit 2
  name := "demo-sms"
  channel := "sms"
  credentials := [("token", .str "secret")]
  config := []

def service : Notification.Service where
  render subject body _ := .ok (subject, body)
  decrypt _ _ := .error ""
  encryptionKey := ""
  dispatcher := false

/-- A nonce. -/
def zeros : List UInt8 := List.replicate 12 0

end Sample

open Sample in
/-- SendGrid is handed its key and its sender. -/
theorem credentials_reach_provider_sendgrid :
    ∃ row merged, Notification.buildProjectProviderConfig (reader service oneDocument "key") row =
        .ok (some (.obj merged)) ∧
      ∃ w', Runs Call (create (fun _ => true)
        (fun v => .ok (oneDocument.encrypt v "key" zeros)) sendgridInput) (holding [])
        ((create (fun _ => true) (fun v => .ok (oneDocument.encrypt v "key" zeros))
          sendgridInput).drive World.answer (holding [])).1 (ofExcept (.ok row)) w' := by
  have hn : prepareProviderInput (fun _ => true) sendgridInput.name sendgridInput.channel
      sendgridInput.credentials sendgridInput.config none =
      .ok ⟨"sendgrid", "email", some (stringMap [("api_key", "SG.1")]),
        some (stringMap [("from_email", "news@example.com")])⟩ := rfl
  have hout : ∃ row, ((create (fun _ => true) (fun v => .ok (oneDocument.encrypt v "key" zeros))
      sendgridInput).drive World.answer (holding [])).2.1 = .ok row := ⟨_, rfl⟩
  obtain ⟨row, hrow⟩ := hout
  have hruns := runs_drive (fun op w => Call.answer op w) (create (fun _ => true)
    (fun v => .ok (oneDocument.encrypt v "key" zeros)) sendgridInput) (holding [])
  rw [hrow] at hruns
  obtain ⟨hmerged, -, -⟩ := credentials_reach_provider (s := service) hn
    (by decide +kernel) (by decide) (fun v hv => by cases hv; rfl) hruns
  obtain ⟨-, -, merged, -, -, hbuild, -⟩ := hmerged (by decide)
  exact ⟨row, merged, hbuild, _, hruns⟩

open Sample in
/-- The demo SMS provider accepts credentials, keeps none of them, and has no config: what
it is handed is not an object. -/
theorem demo_not_object :
    ∃ n row w', prepareProviderInput (fun _ => true) demoInput.name demoInput.channel
        demoInput.credentials demoInput.config none = .ok n ∧
      ((create (fun _ => true) (fun v => .ok (oneDocument.encrypt v "key" zeros)) demoInput).drive
        World.answer (holding [])).2 = (.ok row, w') ∧
      Notification.buildProjectProviderConfig (reader service oneDocument "key") row = .ok none :=
  ⟨_, _, _, rfl, rfl, rfl⟩

end Iwifunni.Integration
