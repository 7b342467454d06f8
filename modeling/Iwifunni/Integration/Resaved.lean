/-
Iwifunni/Integration/Resaved.lean

Saving an integration again without a change.

A client that has nothing new to say sends no credentials and no config, and every
normalizer then falls back on what is stored.  Whether that works is decided by what
the normalizer looks for in the stored documents, compared with what it has put there:

                  written on creation              looked for on an update
    sendgrid      {from_email}                     from_email
    smtp          {host, port, from}               host, port, from
    termii        {provider, sender_id}            provider, sender_id
    twilio        {provider, sender_id}            from_number
    brevo         credentials, encrypted           api_key in the credentials
    brevo-sms     credentials, encrypted           api_key in the credentials
    fcm, webpush  {provider}                       (computed anew)
    demo-email    {owner_email, sender_name, …}    (kept)
    demo-sms      (nothing)                        (nothing)

so the three in the middle refuse (`resaved_iff`).
-/
import Iwifunni.Integration.Flags
import Mathlib.Data.List.Nodup

namespace Iwifunni.Integration

open Go Db Effect Effect.Prog Store

/-! ### Stored records -/

/-- The row holds a normalized input: the config as it is, the credentials as an
encrypted string, or `{}` if there are none. -/
structure Holds (row : Db.Integration) (n : NormalizedInput) : Prop where
  name_eq : row.name = n.name
  channel_eq : row.channel = n.channel
  config_eq : row.config = n.configJSON
  credentials_eq : (n.credentialsJSON.isSome = true → ∃ encrypted, row.credentials =
      some (.str encrypted)) ∧
    (n.credentialsJSON = none → row.credentials = some (.obj []))

/-- What the normalizers see of a row. -/
def stored (row : Db.Integration) : StoredInput := ⟨row.credentials, row.config⟩

theorem Holds.hasCredentials {row : Db.Integration} {n : NormalizedInput} (h : Holds row n) :
    hasCredentials (some (stored row)) = true := by
  show row.credentials.isSome = true
  rcases hc : n.credentialsJSON with - | v
  · rw [h.credentials_eq.2 hc]
    rfl
  · obtain ⟨encrypted, he⟩ := h.credentials_eq.1 (by rw [hc]; rfl)
    rw [he]
    rfl

/-- A normalizer that is given nothing keeps what is stored. -/
def Keeps (d : Definition) (row : Db.Integration) : Prop :=
  d.normalize [] [] (some (stored row)) =
    .ok { name := row.name, channel := row.channel, configJSON := row.config }

/-- A normalizer that is given nothing refuses what is stored. -/
def Refuses (d : Definition) (row : Db.Integration) : Prop :=
  ∃ e, d.normalize [] [] (some (stored row)) = .error e

/-! ### One provider after the other -/

section Normalizers

variable {parseAddress : String → Bool} {row : Db.Integration} {n : NormalizedInput}
  {credentials config : Fields} {name channel : String}
  {credentialsOf configOf : Fields → Fields → Option StoredInput → Except GoError (Option Json)}

/-- A provider that computes its two documents one after the other. -/
def documents (name channel : String)
    (credentialsOf configOf : Fields → Fields → Option StoredInput → Except GoError (Option Json)) :
    Definition where
  name := name
  channel := channel
  normalize credentials config current := do
    let credentialsJSON ← credentialsOf credentials config current
    let configJSON ← configOf credentials config current
    return ⟨name, channel, credentialsJSON, configJSON⟩

/-- What a provider with two documents stores. -/
theorem documents_ok
    (h : (documents name channel credentialsOf configOf).normalize credentials config none = .ok n) :
    n.name = name ∧ n.channel = channel ∧
      credentialsOf credentials config none = .ok n.credentialsJSON ∧
      configOf credentials config none = .ok n.configJSON := by
  dsimp only [documents] at h
  rcases hc : credentialsOf credentials config none with e | v
  · rw [hc] at h
    cases h
  · rcases hf : configOf credentials config none with e | u
    · rw [hc, hf] at h
      cases h
    · rw [hc, hf] at h
      cases h
      exact ⟨rfl, rfl, rfl, rfl⟩

theorem keeps_documents (hrow : Holds row n) (hname : n.name = name) (hchannel : n.channel = channel)
    (hc : credentialsOf [] [] (some (stored row)) = .ok none)
    (hf : configOf [] [] (some (stored row)) = .ok n.configJSON) :
    Keeps (documents name channel credentialsOf configOf) row := by
  show (credentialsOf [] [] (some (stored row)) >>= fun c =>
    configOf [] [] (some (stored row)) >>= fun f => _) = _
  rw [hc, hf, hrow.name_eq, hrow.channel_eq, hrow.config_eq, hname, hchannel]
  rfl

theorem refuses_credentials {e : GoError} (hc : credentialsOf [] [] (some (stored row)) = .error e) :
    Refuses (documents name channel credentialsOf configOf) row := by
  refine ⟨e, ?_⟩
  show (credentialsOf [] [] (some (stored row)) >>= fun c => _) = _
  rw [hc]
  rfl

theorem refuses_config {e : GoError} (hc : credentialsOf [] [] (some (stored row)) = .ok none)
    (hf : configOf [] [] (some (stored row)) = .error e) :
    Refuses (documents name channel credentialsOf configOf) row := by
  refine ⟨e, ?_⟩
  show (credentialsOf [] [] (some (stored row)) >>= fun c =>
    configOf [] [] (some (stored row)) >>= fun f => _) = _
  rw [hc, hf]
  rfl

/-- Without credentials the stored ones are kept. -/
theorem normalizeStringMapCredentials_nil (h : Holds row n) (message : String)
    (keys : List String) :
    normalizeStringMapCredentials [] (some (stored row)) message keys = .ok none := by
  rw [normalizeStringMapCredentials, if_pos List.isEmpty_nil, if_pos h.hasCredentials]

/-- What an SMS provider stores names the provider and the sender. -/
theorem normalizeSender_ok {key message : String} {keys : List String} {v : Option Json}
    (h : normalizeSender name key message keys config none = .ok v) :
    ∃ sender, v = some (stringMap [("provider", name), ("sender_id", sender)]) := by
  unfold normalizeSender at h
  rcases hs : requiredString config key with e | sender
  · rw [hs] at h
    cases h
  · rw [hs] at h
    cases h
    exact ⟨sender, rfl⟩

/-- A stored document with all keys is kept. -/
theorem validateStoredConfig_ok {fields : Fields} {keys : List String}
    (h : ∀ key ∈ keys, (Json.lookup fields key).isSome = true) :
    validateStoredConfig (some (.obj fields)) keys = .ok (some (.obj fields)) := by
  have hnone : keys.find? (fun key => (Json.lookup fields key).isNone) = none := by
    rw [List.find?_eq_none]
    intro key hkey
    simpa using Option.isSome_iff_ne_none.mp (h key hkey)
  unfold validateStoredConfig
  dsimp only [Json.toMap]
  rw [hnone]

/-- A missing key is an error. -/
theorem validateStoredConfig_error {fields : Fields} {keys : List String} {key : String}
    (hkey : key ∈ keys) (h : Json.lookup fields key = none) :
    ∃ e, validateStoredConfig (some (.obj fields)) keys = .error e := by
  rcases hfind : keys.find? (fun key => (Json.lookup fields key).isNone) with - | missing
  · have hsome := List.find?_eq_none.mp hfind key hkey
    simp [h] at hsome
  · refine ⟨.other ("missing " ++ missing), ?_⟩
    unfold validateStoredConfig
    dsimp only [Json.toMap]
    rw [hfind]

/-- Without a config the stored one is used. -/
theorem requiredString_nil (key : String) :
    requiredString [] key = .error ("missing " ++ key) := rfl

theorem normalizeSender_keep {key message : String} {keys : List String} {v : Json}
    (hconfig : row.config = some v) (h : validateStoredConfig (some v) keys = .ok (some v)) :
    normalizeSender name key message keys [] (some (stored row)) = .ok (some v) := by
  have hstored : storedConfig (some (stored row)) = some v := hconfig
  simp only [normalizeSender, requiredString_nil, hstored, h]

theorem normalizeSender_refuse {key message : String} {keys : List String} {v : Json}
    {e : GoError} (hconfig : row.config = some v)
    (h : validateStoredConfig (some v) keys = .error e) :
    normalizeSender name key message keys [] (some (stored row)) =
      .error (.validation message) := by
  have hstored : storedConfig (some (stored row)) = some v := hconfig
  simp only [normalizeSender, requiredString_nil, hstored, h]

/-- The keys under which an SMS provider stores its config. -/
theorem lookup_sender (sender : String) :
    (∀ key ∈ ["provider", "sender_id"], (Json.lookup
      [("provider", Json.str name), ("sender_id", Json.str sender)] key).isSome = true) ∧
    Json.lookup [("provider", Json.str name), ("sender_id", Json.str sender)] "from_number" =
      none := by
  simp [Json.lookup]

theorem keeps_sms (hrow : Holds row n)
    (h : (newSMSDefinition name).normalize credentials config none = .ok n) :
    Keeps (newSMSDefinition name) row := by
  obtain ⟨hname, hchannel, -, hf⟩ := documents_ok h
  obtain ⟨sender, hv⟩ := normalizeSender_ok hf
  refine keeps_documents hrow hname hchannel (normalizeStringMapCredentials_nil hrow _ _) ?_
  rw [hv]
  exact normalizeSender_keep (hrow.config_eq.trans hv)
    (validateStoredConfig_ok (lookup_sender sender).1)

/-- The number is stored under another name than it is looked for. -/
theorem refuses_twilio (hrow : Holds row n)
    (h : twilio.normalize credentials config none = .ok n) : Refuses twilio row := by
  obtain ⟨-, -, -, hf⟩ := documents_ok h
  obtain ⟨sender, hv⟩ := normalizeSender_ok hf
  obtain ⟨e, he⟩ := validateStoredConfig_error (List.mem_singleton_self "from_number")
    (@lookup_sender "twilio" sender).2
  refine refuses_config ?_ (normalizeSender_refuse (hrow.config_eq.trans hv) he)
  show normalizeTwilioCredentials [] (some (stored row)) = _
  rw [normalizeTwilioCredentials, if_pos List.isEmpty_nil, if_pos hrow.hasCredentials]

/-- Brevo always has credentials, and cannot look into the stored ones. -/
theorem normalizeBrevoCredentials_nil (hrow : Holds row n) {v : Option Json}
    (hn : n.credentialsJSON = v) (h : normalizeBrevoCredentials credentials none = .ok v) :
    ∃ e, normalizeBrevoCredentials [] (some (stored row)) = .error e := by
  have hsome : v.isSome = true := by
    unfold normalizeBrevoCredentials at h
    split at h
    · cases h
    · split at h
      · cases h
      · cases h
        rfl
  obtain ⟨encrypted, hc⟩ := hrow.credentials_eq.1 (by rw [hn]; exact hsome)
  refine ⟨.validation "a valid brevo api_key is required", ?_⟩
  show normalizeBrevoCredentials [] (some ⟨row.credentials, row.config⟩) = _
  rw [hc]
  rfl

theorem refuses_brevoSMS (hrow : Holds row n)
    (h : brevoSMS.normalize credentials config none = .ok n) : Refuses brevoSMS row := by
  obtain ⟨-, -, hc, -⟩ := documents_ok h
  obtain ⟨e, he⟩ := normalizeBrevoCredentials_nil hrow rfl hc
  exact refuses_credentials he

theorem refuses_brevo (hrow : Holds row n)
    (h : (brevo parseAddress).normalize credentials config none = .ok n) :
    Refuses (brevo parseAddress) row := by
  obtain ⟨-, -, hc, -⟩ := documents_ok h
  obtain ⟨e, he⟩ := normalizeBrevoCredentials_nil hrow rfl hc
  exact refuses_credentials he

/-- What SendGrid stores has an address it accepts again. -/
theorem normalizeSendGridConfig_ok {v : Option Json}
    (h : normalizeSendGridConfig parseAddress config none = .ok v) :
    ∃ fromEmail, v = some (stringMap [("from_email", fromEmail)]) ∧ fromEmail ≠ "" ∧
      trimSpace fromEmail = fromEmail ∧ parseAddress fromEmail = true := by
  unfold normalizeSendGridConfig at h
  split at h
  · cases h
  · split at h
    · next raw _ =>
      split at h
      · cases h
      · next hne =>
        split at h
        · next haddress =>
          cases h
          exact ⟨trimSpace raw, rfl, hne, trimSpace_trimSpace raw, haddress⟩
        · cases h
    · cases h

/-- A stored sender is valid. -/
theorem validateStoredSender_self {fromEmail : String} (hne : fromEmail ≠ "")
    (htrim : trimSpace fromEmail = fromEmail) (haddress : parseAddress fromEmail = true) :
    validateStoredSender parseAddress (some (stringMap [("from_email", fromEmail)])) = true := by
  have hread : (Json.unmarshal (some (stringMap [("from_email", fromEmail)])) fun v => do
      let fields ← v.structFields "sendgrid.managementConfig"
      Json.field (sortedFields fields) "from_email" "" Json.toStr) = .ok fromEmail := by
    show Json.field [("from_email", Json.str fromEmail)] "from_email" "" Json.toStr = _
    rw [Json.field_cons_self]
    rfl
  unfold validateStoredSender
  rw [hread]
  dsimp only
  rw [htrim, haddress]
  simpa using hne

/-- SendGrid keeps its row. -/
theorem keeps_sendgrid (hrow : Holds row n)
    (h : (sendgrid parseAddress).normalize credentials config none = .ok n) :
    Keeps (sendgrid parseAddress) row := by
  obtain ⟨hname, hchannel, -, hf⟩ := documents_ok h
  obtain ⟨fromEmail, hv, hne, htrim, haddress⟩ := normalizeSendGridConfig_ok hf
  refine keeps_documents hrow hname hchannel ?_ ?_
  · show normalizeSendGridCredentials [] (some (stored row)) = _
    rw [normalizeSendGridCredentials, if_pos List.isEmpty_nil, if_pos hrow.hasCredentials]
  · show normalizeSendGridConfig parseAddress [] (some (stored row)) = _
    rw [normalizeSendGridConfig, if_pos List.isEmpty_nil]
    show (if validateStoredSender parseAddress row.config = true then Except.ok row.config
      else .error (GoError.validation "a valid sendgrid from_email is required")) = _
    rw [hrow.config_eq, hv, if_pos (validateStoredSender_self hne htrim haddress)]

/-- What SMTP stores has the keys it looks for. -/
theorem normalizeSMTPConfig_ok {v : Option Json}
    (h : normalizeSMTPConfig parseAddress config none = .ok v) :
    ∃ host port fromEmail, v = some (.obj [("host", host), ("port", port), ("from", fromEmail)]) := by
  unfold normalizeSMTPConfig at h
  split at h
  · cases h
  · dsimp only at h
    split at h
    · split at h
      · cases h
        exact ⟨_, _, _, rfl⟩
      · cases h
    · cases h

/-- SMTP keeps its row. -/
theorem keeps_smtp (hrow : Holds row n)
    (h : (smtp parseAddress).normalize credentials config none = .ok n) :
    Keeps (smtp parseAddress) row := by
  obtain ⟨hname, hchannel, -, hf⟩ := documents_ok h
  obtain ⟨host, port, fromEmail, hv⟩ := normalizeSMTPConfig_ok hf
  refine keeps_documents hrow hname hchannel (normalizeStringMapCredentials_nil hrow _ _) ?_
  have hkeys : ∀ key ∈ ["host", "port", "from"],
      (Json.lookup [("host", host), ("port", port), ("from", fromEmail)] key).isSome = true := by
    simp [Json.lookup]
  show normalizeSMTPConfig parseAddress [] (some ⟨row.credentials, row.config⟩) = _
  rw [hrow.config_eq, hv]
  exact validateStoredConfig_ok hkeys

/-- The push providers keep their rows. -/
theorem keeps_push {message : String} {keys : List String} (hrow : Holds row n)
    (h : (pushDefinition name message keys).normalize credentials config none = .ok n) :
    Keeps (pushDefinition name message keys) row := by
  dsimp only [pushDefinition] at h
  rcases hc : normalizeStringMapCredentials credentials none message keys with e | v
  · rw [hc] at h
    cases h
  · rw [hc] at h
    cases h
    show (normalizeStringMapCredentials [] (some (stored row)) message keys >>= fun v => _) = _
    rw [normalizeStringMapCredentials_nil hrow, hrow.name_eq, hrow.channel_eq, hrow.config_eq]
    rfl

/-- The owner is always stored. -/
theorem normalizeOwner_ok {v : Option Json} (h : normalizeOwner parseAddress config none = .ok v) :
    v.isSome = true := by
  unfold normalizeOwner at h
  split at h
  · cases h
  · split at h
    · cases h
      rfl
    · cases h

/-- The demo provider keeps its row. -/
theorem keeps_demoEmail (hrow : Holds row n)
    (h : (demoEmail parseAddress).normalize credentials config none = .ok n) :
    Keeps (demoEmail parseAddress) row := by
  dsimp only [demoEmail] at h
  rcases hc : normalizeOwner parseAddress config none with e | v
  · rw [hc] at h
    cases h
  · rw [hc] at h
    cases h
    obtain ⟨document, rfl⟩ := Option.isSome_iff_exists.mp (normalizeOwner_ok hc)
    have hkeep : normalizeOwner parseAddress [] (some (stored row)) = .ok (some document) := by
      show normalizeOwner parseAddress [] (some ⟨row.credentials, row.config⟩) = _
      rw [hrow.config_eq]
      rfl
    show (normalizeOwner parseAddress [] (some (stored row)) >>= fun v => _) = _
    rw [hkeep, hrow.name_eq, hrow.channel_eq, hrow.config_eq]
    rfl

theorem keeps_demoSMS (hrow : Holds row n)
    (h : demoSMS.normalize credentials config none = .ok n) : Keeps demoSMS row := by
  cases h
  show Except.ok _ = Except.ok _
  rw [hrow.name_eq, hrow.channel_eq, hrow.config_eq]

end Normalizers

/-! ### The catalog -/

/-- The providers whose normalizers do not find again what they have stored. -/
def forgetful : List String := ["brevo", "brevo-sms", "twilio"]

section Catalog

variable {parseAddress : String → Bool} {d : Definition} {row : Db.Integration}
  {n : NormalizedInput} {credentials config : Fields}

/-- **Saved once more**, the row of a provider is kept, or refused by the forgetful ones. -/
theorem keeps_or_refuses (hd : d ∈ newCatalog parseAddress) (hrow : Holds row n)
    (h : d.normalize credentials config none = .ok n) :
    (d.name ∉ forgetful ∧ Keeps d row) ∨ (d.name ∈ forgetful ∧ Refuses d row) := by
  simp only [newCatalog, List.mem_cons, List.not_mem_nil, or_false] at hd
  rcases hd with rfl | rfl | rfl | rfl | rfl | rfl | rfl | rfl | rfl | rfl
  · exact Or.inl ⟨show "sendgrid" ∉ forgetful by decide, keeps_sendgrid hrow h⟩
  · exact Or.inr ⟨show "brevo" ∈ forgetful by decide, refuses_brevo hrow h⟩
  · exact Or.inr ⟨by decide, refuses_brevoSMS hrow h⟩
  · exact Or.inl ⟨show "smtp" ∉ forgetful by decide, keeps_smtp hrow h⟩
  · exact Or.inl ⟨by decide, keeps_sms hrow h⟩
  · exact Or.inr ⟨by decide, refuses_twilio hrow h⟩
  · exact Or.inl ⟨by decide, keeps_push hrow h⟩
  · exact Or.inl ⟨by decide, keeps_push hrow h⟩
  · exact Or.inl ⟨show "demo-email" ∉ forgetful by decide, keeps_demoEmail hrow h⟩
  · exact Or.inl ⟨by decide, keeps_demoSMS hrow h⟩

/-- The names of the catalog. -/
def catalogNames : List String :=
  ["sendgrid", "brevo", "brevo-sms", "smtp", "termii", "twilio", "fcm", "webpush", "demo-email",
    "demo-sms"]

theorem names_newCatalog (parseAddress : String → Bool) :
    (newCatalog parseAddress).map Definition.name = catalogNames := rfl

theorem normalized_names : ∀ name ∈ catalogNames, toLower (trimSpace name) = name := by
  decide +kernel

theorem normalized_channels : ∀ channel ∈ ["email", "sms", "push"],
    toLower (trimSpace channel) = channel := by
  decide +kernel

theorem channel_mem (hd : d ∈ newCatalog parseAddress) : d.channel ∈ ["email", "sms", "push"] := by
  have hall : (newCatalog parseAddress).map Definition.channel =
      ["email", "email", "sms", "email", "sms", "sms", "push", "push", "email", "sms"] := rfl
  have hmem := List.mem_map_of_mem (f := Definition.channel) hd
  rw [hall] at hmem
  simp only [List.mem_cons, List.not_mem_nil, or_false] at hmem ⊢
  tauto

/-- A provider is found under its own name. -/
theorem catalogGet_self (hd : d ∈ newCatalog parseAddress) :
    catalogGet parseAddress d.name = some d := by
  have hnodup : ((newCatalog parseAddress).map Definition.name).Nodup := by
    rw [names_newCatalog]
    decide
  rcases hfind : catalogGet parseAddress d.name with - | d'
  · have hnone := List.find?_eq_none.mp hfind d hd
    simp at hnone
  · have hname : d'.name = d.name := by simpa using List.find?_some hfind
    have hmem := List.mem_of_find?_eq_some hfind
    rw [List.inj_on_of_nodup_map hnodup hmem hd hname]

/-- Saving a row under its own name and channel runs its own normalizer. -/
theorem prepareProviderInput_self (hd : d ∈ newCatalog parseAddress)
    (hname : row.name = d.name) (hchannel : row.channel = d.channel) :
    prepareProviderInput parseAddress row.name row.channel [] [] (some row) =
      d.normalize [] [] (some (stored row)) := by
  have hn : toLower (trimSpace d.name) = d.name := by
    refine normalized_names _ ?_
    rw [← names_newCatalog parseAddress]
    exact List.mem_map_of_mem hd
  have hc := normalized_channels _ (channel_mem hd)
  unfold prepareProviderInput
  dsimp only
  rw [hname, hchannel, hn, catalogGet_self hd, hc]
  dsimp only
  rw [if_neg (not_not.mpr rfl)]
  rfl

variable {w : World}

/-- `Service.Update` of a row with nothing new. -/
def resave (parseAddress : String → Bool) (encrypt : Encrypt) (row : Db.Integration) :
    Act Db.Integration :=
  update parseAddress encrypt ⟨row.id, row.environmentID, row.name, row.channel, [], []⟩

/-- A row that is written as it is changes nothing. -/
theorem answer_updateIntegration_self (h : Constrained w.integrations)
    (hrow : row ∈ w.integrations) :
    World.answer (.updateIntegration row.id row.environmentID row.name row.channel
      row.credentials row.config) w = (.ok row, w) := by
  have hrows : (w.integrations.map fun r =>
      if r.id == row.id && r.environmentID == row.environmentID then
        { r with name := row.name, channel := row.channel, credentials := row.credentials,
                 config := row.config } else r) = w.integrations := by
    conv_rhs => rw [← List.map_id w.integrations]
    refine List.map_congr_left fun r hr => ?_
    by_cases hid : r.id = row.id
    · rw [h.eq_of_id hrow hr hid]
      simp
    · rw [if_neg (by simp [hid])]
      rfl
  show w.modifyIntegration row.id row.environmentID _ = _
  unfold World.modifyIntegration
  rw [find_row h hrow]
  dsimp only
  rw [hrows, if_pos (integrationsOk_iff.mpr h)]

/-- A row that is kept is written as it was. -/
theorem drive_resave_keeps (h : Constrained w.integrations) (hrow : row ∈ w.integrations)
    (hd : d ∈ newCatalog parseAddress) (hname : row.name = d.name)
    (hchannel : row.channel = d.channel) (hkeeps : Keeps d row) (encrypt : Encrypt) :
    ((resave parseAddress encrypt row).drive World.answer w).2 = (.ok row, w) := by
  unfold resave update
  rw [drive_perform_bind (answer_getIntegrationByID h hrow)]
  dsimp only
  rw [prepareProviderInput_self hd hname hchannel, hkeeps]
  show ((perform (Op.updateIntegration row.id row.environmentID row.name row.channel
    row.credentials row.config)).drive World.answer w).2 = _
  rw [drive_perform (answer_updateIntegration_self h hrow)]

/-- A row that is refused is not written. -/
theorem drive_resave_refuses (h : Constrained w.integrations) (hrow : row ∈ w.integrations)
    (hd : d ∈ newCatalog parseAddress) (hname : row.name = d.name)
    (hchannel : row.channel = d.channel) (hrefuses : Refuses d row) (encrypt : Encrypt) :
    ∃ e, ((resave parseAddress encrypt row).drive World.answer w).2 = (.error e, w) := by
  obtain ⟨e, he⟩ := hrefuses
  refine ⟨e, ?_⟩
  unfold resave update
  rw [drive_perform_bind (answer_getIntegrationByID h hrow)]
  dsimp only
  rw [prepareProviderInput_self hd hname hchannel, he]
  rfl

/-- **Saving again without a change** is a no-op for every provider but Brevo's two and
Twilio, which refuse. -/
theorem resaved_iff (hd : d ∈ newCatalog parseAddress)
    (hn : d.normalize credentials config none = .ok n) (hholds : Holds row n)
    (hok : integrationsOk w.integrations = true) (hrow : row ∈ w.integrations)
    (encrypt : Encrypt) :
    ((resave parseAddress encrypt row).drive World.answer w).2 = (.ok row, w) ↔
      d.name ∉ forgetful := by
  have h := integrationsOk_iff.mp hok
  obtain ⟨hname, hchannel⟩ := names_of_mem_newCatalog hd _ _ _ _ hn
  have hname := hholds.name_eq.trans hname
  have hchannel := hholds.channel_eq.trans hchannel
  rcases keeps_or_refuses hd hholds hn with ⟨hnot, hkeeps⟩ | ⟨hin, hrefuses⟩
  · exact ⟨fun _ => hnot, fun _ => drive_resave_keeps h hrow hd hname hchannel hkeeps encrypt⟩
  · obtain ⟨e, he⟩ := drive_resave_refuses h hrow hd hname hchannel hrefuses encrypt
    rw [he]
    exact ⟨fun hc => (by cases hc), fun hnot => absurd hin hnot⟩

end Catalog

namespace Sample

/-- A twilio integration, as it is stored. -/
def phone : Db.Integration where
  id := UUID.ofDigit 5
  environmentID := UUID.ofDigit 2
  name := "twilio"
  channel := "sms"
  credentials := some (.str "c2VhbGVk")
  config := some (stringMap [("provider", "twilio"), ("sender_id", "+15550100")])
  isActive := true
  isPrimary := true

/-- What the client has submitted for it. -/
def phoneInput : NormalizedInput where
  name := "twilio"
  channel := "sms"
  credentialsJSON := some (stringMap [("account_sid", "AC1"), ("api_key", "token")])
  configJSON := some (stringMap [("provider", "twilio"), ("sender_id", "+15550100")])

end Sample

open Sample in
/-- SendGrid can be saved again. -/
theorem resaved_iff_sendgrid :
    ((resave (fun _ => true) (fun _ => .ok "") (mail (UUID.ofDigit 3) "sendgrid" true true)).drive
      World.answer (holding [mail (UUID.ofDigit 3) "sendgrid" true true])).2 =
    (.ok (mail (UUID.ofDigit 3) "sendgrid" true true),
      holding [mail (UUID.ofDigit 3) "sendgrid" true true]) := by
  have hn : (sendgrid fun _ => true).normalize [("api_key", .str "SG.1")]
      [("from_email", .str " news@example.com")] none =
      .ok ⟨"sendgrid", "email", some (stringMap [("api_key", "SG.1")]),
        some (stringMap [("from_email", "news@example.com")])⟩ := by
    rfl
  refine (resaved_iff (d := sendgrid fun _ => true) (List.mem_cons_self ..) hn
    ⟨rfl, rfl, rfl, fun _ => ⟨"c2VhbGVk", rfl⟩, fun h => ?_⟩ (by decide +kernel)
    (List.mem_cons_self ..) _).mpr (show "sendgrid" ∉ forgetful by decide)
  cases h

open Sample in
/-- Twilio accepts this input, and refuses it when it is saved again unchanged. -/
theorem twilio_not_resaved :
    twilio.normalize [("account_sid", .str "AC1"), ("auth_token", .str "token")]
        [("from_number", .str "+15550100")] none = .ok phoneInput ∧
      Holds phone phoneInput ∧
      ((resave (fun _ => true) (fun _ => .ok "") phone).drive World.answer (holding [phone])).2.1 =
        .error (.validation "a valid twilio from_number is required") := by
  refine ⟨rfl, ⟨rfl, rfl, rfl, fun _ => ⟨"c2VhbGVk", rfl⟩, fun h => ?_⟩, ?_⟩
  · cases h
  · rfl

end Iwifunni.Integration
