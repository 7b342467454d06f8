/-
Iwifunni/Integration/Secrets.lean

What the replies of the integration endpoints say about secrets.

Two deployments, with different keys, ciphers and platform credentials, are sent the same
requests but for the texts of the submitted credentials:

    replies   r₁   r₂   r₃  ...           the same replies
              |    |    |                 as long as nobody saves `demo-email`, whose
    worlds  w₁ → w₂ → w₃ → ...            platform credentials are put into the config

The worlds stay the same up to the text of the encrypted credentials (`Alike`).  A reply is
made from what a client can see of a row (`blind`), and every statement and every provider
of the catalog respects that.
-/
import Iwifunni.Integration.Handlers
import Iwifunni.Integration.Primaries
import Iwifunni.Integration.Sealed

namespace Iwifunni.Integration.Secrets

open Go Db Effect Effect.Prog Store

/-! ### What can be seen of credentials -/

/-- Of a text can be seen that it is one. -/
def blindDocument : Json → Json
  | .str _ => .str ""
  | v => v

/-- A row without the text of its credentials. -/
def blind (r : Db.Integration) : Db.Integration :=
  { r with credentials := r.credentials.map blindDocument }

/-- Rows that look the same. -/
def RowAlike (r r' : Db.Integration) : Prop := blind r = blind r'

/-- They agree on everything that can be seen. -/
theorem RowAlike.project {r r' : Db.Integration} (h : RowAlike r r') (f : Db.Integration → β)
    (hf : ∀ r, f (blind r) = f r) : f r = f r' := by
  rw [← hf r, ← hf r', h]

/-- Two submitted credentials: the same, or two texts that are blank or not alike. -/
inductive ValueAlike : Json → Json → Prop
  | refl (v) : ValueAlike v v
  | str {s s' : String} (h : trimSpace s = "" ↔ trimSpace s' = "") : ValueAlike (.str s) (.str s')

/-- The same keys, with credentials that are alike. -/
def FieldsAlike : Fields → Fields → Prop :=
  List.Forall₂ fun f f' => f.1 = f'.1 ∧ ValueAlike f.2 f'.2

/-- The same request, but for credentials. -/
structure SaveAlike (req req' : SaveRequest) : Prop where
  name : req.name = req'.name
  channel : req.channel = req'.channel
  config : req.config = req'.config
  credentials : Option.Rel FieldsAlike req.credentials req'.credentials

inductive RequestAlike : ApiRequest → ApiRequest → Prop
  | create {body body'} (h : Option.Rel SaveAlike body body') :
      RequestAlike (.create body) (.create body')
  | update {providerID body body'} (h : Option.Rel SaveAlike body body') :
      RequestAlike (.update providerID body) (.update providerID body')
  | same (r) : RequestAlike r r

/-- Two worlds that look the same from outside. -/
structure Alike (w w' : World) : Prop where
  users : w.users = w'.users
  integrations : w.integrations.map blind = w'.integrations.map blind

theorem Alike.refl (w : World) : Alike w w := ⟨rfl, rfl⟩

/-! ### Statements -/

/-- Statements that differ in the text of credentials. -/
inductive OpAlike : Op → Op → Prop
  | getUserByID (id) : OpAlike (.getUserByID id) (.getUserByID id)
  | newUUID : OpAlike .newUUID .newUUID
  | getIntegrationByID (id environmentID) :
      OpAlike (.getIntegrationByID id environmentID) (.getIntegrationByID id environmentID)
  | listIntegrations (environmentID) :
      OpAlike (.listIntegrations environmentID) (.listIntegrations environmentID)
  | listByChannel (environmentID channel) :
      OpAlike (.listByChannel environmentID channel) (.listByChannel environmentID channel)
  | createIntegration {arg arg'} (h : blind arg = blind arg') :
      OpAlike (.createIntegration arg) (.createIntegration arg')
  | updateIntegration {id environmentID name channel credentials credentials' config}
      (h : credentials.map blindDocument = credentials'.map blindDocument) :
      OpAlike (.updateIntegration id environmentID name channel credentials config)
        (.updateIntegration id environmentID name channel credentials' config)
  | updateIntegrationState (id environmentID isActive isPrimary) :
      OpAlike (.updateIntegrationState id environmentID isActive isPrimary)
        (.updateIntegrationState id environmentID isActive isPrimary)
  | clearPrimaryByChannel (environmentID channel) :
      OpAlike (.clearPrimaryByChannel environmentID channel)
        (.clearPrimaryByChannel environmentID channel)
  | deleteIntegration (id environmentID) :
      OpAlike (.deleteIntegration id environmentID) (.deleteIntegration id environmentID)

/-- What can be seen of an answer. -/
inductive Seen
  | row (r : Db.Integration)
  | rows (rs : List Db.Integration)
  | user (u : User)
  | id (u : UUID)
  | nothing

def seen : (op : Op) → op.Res → Seen
  | .createIntegration _, r => .row (blind r)
  | .getIntegrationByID _ _, r => .row (blind r)
  | .updateIntegration _ _ _ _ _ _, r => .row (blind r)
  | .updateIntegrationState _ _ _ _, r => .row (blind r)
  | .listIntegrations _, rs => .rows (rs.map blind)
  | .listByChannel _ _, rs => .rows (rs.map blind)
  | .getUserByID _, u => .user u
  | .newUUID, u => .id u
  | _, _ => .nothing

/-- Two answers that look the same. -/
def Same (op op' : Op) (a : op.Res) (b : op'.Res) : Prop := seen op a = seen op' b

/-- The constraints of the table say nothing about credentials. -/
theorem distinctBy_map [BEq κ] (key : β → κ) (f : α → β) (l : List α) :
    distinctBy key (l.map f) = distinctBy (fun a => key (f a)) l := by
  induction l with
  | nil => rfl
  | cons a l ih =>
      rw [List.map_cons, distinctBy, distinctBy, ih, List.all_map]
      rfl

theorem integrationsOk_blind (rows : List Db.Integration) :
    integrationsOk (rows.map blind) = integrationsOk rows := by
  rw [integrationsOk, integrationsOk, distinctBy_map, distinctBy_map, List.all_map,
    List.filter_map, distinctBy_map]
  rfl

theorem integrationsOk_congr {rows rows' : List Db.Integration}
    (h : rows.map blind = rows'.map blind) : integrationsOk rows = integrationsOk rows' := by
  rw [← integrationsOk_blind rows, h, integrationsOk_blind]

/-- Rows are looked for by what can be seen of them. -/
theorem find_blind {p : Db.Integration → Bool} (hp : ∀ r, p (blind r) = p r)
    {rows rows' : List Db.Integration} (h : rows.map blind = rows'.map blind) :
    (rows.find? p).map blind = (rows'.find? p).map blind := by
  have hcomp : p ∘ blind = p := by
    funext r
    exact hp r
  have hfind := congrArg (List.find? p) h
  rwa [List.find?_map, List.find?_map, hcomp] at hfind

theorem filter_blind {p : Db.Integration → Bool} (hp : ∀ r, p (blind r) = p r)
    {rows rows' : List Db.Integration} (h : rows.map blind = rows'.map blind) :
    (rows.filter p).map blind = (rows'.filter p).map blind := by
  have hcomp : p ∘ blind = p := by
    funext r
    exact hp r
  have hfilter := congrArg (List.filter p) h
  rwa [List.filter_map, List.filter_map, hcomp] at hfilter

/-- A write that does the same to rows that look the same. -/
theorem map_blind {f g : Db.Integration → Db.Integration}
    (hfg : ∀ r r', blind r = blind r' → blind (f r) = blind (g r'))
    {rows rows' : List Db.Integration} (h : rows.map blind = rows'.map blind) :
    (rows.map f).map blind = (rows'.map g).map blind := by
  induction rows generalizing rows' with
  | nil =>
      cases List.map_eq_nil_iff.mp h.symm
      rfl
  | cons r rows ih =>
      cases rows' with
      | nil => cases h
      | cons r' rows' =>
          rw [List.map_cons, List.map_cons, List.cons.injEq] at h
          rw [List.map_cons, List.map_cons, List.map_cons, List.map_cons, ih h.2, hfg r r' h.1]

/-- The condition of an UPDATE can be seen. -/
theorem ite_blind {p : Db.Integration → Bool} (hp : ∀ r, p (blind r) = p r)
    {f g : Db.Integration → Db.Integration}
    (hfg : ∀ r r', blind r = blind r' → blind (f r) = blind (g r')) {r r' : Db.Integration}
    (h : blind r = blind r') :
    blind (if p r = true then f r else r) = blind (if p r' = true then g r' else r') := by
  rw [← hp r, ← hp r', h]
  split
  · exact hfg r r' h
  · exact h

section Answers

variable {w w' : World}

/-- One row is changed in two tables that look the same. -/
theorem modifyIntegration_alike (h : Alike w w') (id environmentID : UUID)
    {f g : Db.Integration → Db.Integration}
    (hfg : ∀ r r', blind r = blind r' → blind (f r) = blind (g r')) :
    Agree (fun r r' => blind r = blind r') (w.modifyIntegration id environmentID f).1
        (w'.modifyIntegration id environmentID g).1 ∧
      Alike (w.modifyIntegration id environmentID f).2
        (w'.modifyIntegration id environmentID g).2 := by
  have hfind := find_blind (p := fun r => r.id == id && r.environmentID == environmentID)
    (fun _ => rfl) h.integrations
  have hrows := map_blind (fun r r' hr => ite_blind
    (p := fun r => r.id == id && r.environmentID == environmentID) (fun _ => rfl) hfg hr)
    h.integrations
  rw [World.modifyIntegration, World.modifyIntegration]
  generalize w.integrations.find? (fun r => r.id == id && r.environmentID == environmentID) = o
    at hfind ⊢
  generalize w'.integrations.find? (fun r => r.id == id && r.environmentID == environmentID) = o'
    at hfind ⊢
  rcases o with - | r <;> rcases o' with - | r'
  · exact ⟨rfl, h⟩
  · cases hfind
  · cases hfind
  · rw [Option.map_some, Option.map_some, Option.some.injEq] at hfind
    dsimp only
    rw [integrationsOk_congr hrows]
    split
    · exact ⟨hfg r r' hfind, h.users, hrows⟩
    · exact ⟨rfl, h⟩

/-- **Worlds that look the same answer the same** to statements that look the same, and
look the same afterwards. -/
theorem alike_answer {op op' : Op} (hop : OpAlike op op') (h : Alike w w') :
    Agree (Same op op') (World.answer op w).1 (World.answer op' w').1 ∧
      Alike (World.answer op w).2 (World.answer op' w').2 := by
  cases hop with
  | getUserByID id =>
      show Agree _ (orNoRows (w.users.get id)) (orNoRows (w'.users.get id)) ∧ Alike w w'
      rw [h.users]
      refine ⟨?_, h⟩
      rcases w'.users.get id with - | u
      · rfl
      · rfl
  | newUUID => exact ⟨rfl, h⟩
  | getIntegrationByID id environmentID =>
      refine ⟨?_, h⟩
      have hfind := find_blind (p := fun r => r.id == id && r.environmentID == environmentID)
        (fun _ => rfl) h.integrations
      show Agree _ (orNoRows (w.integrations.find? fun r =>
          r.id == id && r.environmentID == environmentID))
        (orNoRows (w'.integrations.find? fun r => r.id == id && r.environmentID == environmentID))
      -- both find a row or none does
      generalize w.integrations.find? (fun r => r.id == id && r.environmentID == environmentID) = o
        at hfind ⊢
      generalize w'.integrations.find? (fun r => r.id == id && r.environmentID == environmentID) =
        o' at hfind ⊢
      rcases o with - | r <;> rcases o' with - | r'
      · rfl
      · cases hfind
      · cases hfind
      · exact congrArg Seen.row (Option.some.inj hfind)
  | listIntegrations environmentID =>
      refine ⟨congrArg Seen.rows ?_, h⟩
      have hrows := filter_blind (p := fun r => r.environmentID == environmentID) (fun _ => rfl)
        h.integrations
      -- the order does not look at the credentials
      have hsort : ∀ rows : List Db.Integration,
          (rows.mergeSort listOrder).map blind = (rows.map blind).mergeSort listOrder :=
        fun rows => List.map_mergeSort fun _ _ _ _ => rfl
      rw [hsort, hsort, hrows]
  | listByChannel environmentID channel =>
      refine ⟨congrArg Seen.rows ?_, h⟩
      have hrows := filter_blind
        (p := fun r => r.environmentID == environmentID && r.channel == channel) (fun _ => rfl)
        h.integrations
      rw [primaryFirst, primaryFirst, List.map_append, List.map_append,
        filter_blind (fun _ => rfl) hrows, filter_blind (fun _ => rfl) hrows]
  | @createIntegration arg arg' harg =>
      have hrows : (w.integrations ++ [arg]).map blind = (w'.integrations ++ [arg']).map blind := by
        rw [List.map_append, List.map_append, h.integrations, List.map_singleton,
          List.map_singleton, harg]
      simp only [World.answer]
      -- neither do the constraints of the table
      rw [integrationsOk_congr hrows]
      split
      · exact ⟨congrArg Seen.row harg, h.users, hrows⟩
      · exact ⟨rfl, h⟩
  | @updateIntegration id environmentID name channel credentials credentials' config hcreds =>
      have hfg : ∀ r r' : Db.Integration, blind r = blind r' →
          blind { r with name := name, channel := channel, credentials := credentials,
                         config := config } =
          blind { r' with name := name, channel := channel, credentials := credentials',
                          config := config } := by
        intro r r' hr
        -- what the statement keeps of a row is not secret
        have hid := congrArg Db.Integration.id hr
        have henv := congrArg Db.Integration.environmentID hr
        have hactive := congrArg Db.Integration.isActive hr
        have hprimary := congrArg Db.Integration.isPrimary hr
        simp only [blind] at hid henv hactive hprimary ⊢
        rw [hid, henv, hactive, hprimary, hcreds]
      obtain ⟨hans, hnext⟩ := modifyIntegration_alike h id environmentID hfg
      exact ⟨hans.mono fun _ _ => congrArg Seen.row, hnext⟩
  | updateIntegrationState id environmentID isActive isPrimary =>
      have hfg : ∀ r r' : Db.Integration, blind r = blind r' →
          blind { r with isActive := isActive, isPrimary := isPrimary } =
          blind { r' with isActive := isActive, isPrimary := isPrimary } := fun r r' hr =>
        congrArg (fun b : Db.Integration => { b with isActive := isActive, isPrimary := isPrimary })
          hr
      obtain ⟨hans, hnext⟩ := modifyIntegration_alike h id environmentID hfg
      exact ⟨hans.mono fun _ _ => congrArg Seen.row, hnext⟩
  | clearPrimaryByChannel environmentID channel =>
      have hfg : ∀ r r' : Db.Integration, blind r = blind r' →
          blind { r with isPrimary := false } = blind { r' with isPrimary := false } :=
        fun r r' hr => congrArg (fun b : Db.Integration => { b with isPrimary := false }) hr
      exact ⟨rfl, h.users, map_blind (fun r r' hr => ite_blind
        (p := fun r => r.environmentID == environmentID && r.channel == channel) (fun _ => rfl)
        hfg hr) h.integrations⟩
  | deleteIntegration id environmentID =>
      exact ⟨rfl, h.users, filter_blind
        (p := fun r => !(r.id == id && r.environmentID == environmentID)) (fun _ => rfl)
        h.integrations⟩

end Answers

/-! ### Providers -/

/-- Normalized inputs that differ in the text of credentials. -/
structure NormalAlike (n n' : NormalizedInput) : Prop where
  name : n.name = n'.name
  channel : n.channel = n'.channel
  configJSON : n.configJSON = n'.configJSON
  credentialsJSON : n.credentialsJSON.isSome = n'.credentialsJSON.isSome

/-- Stored documents of rows that look the same. -/
inductive StoredAlike : Option StoredInput → Option StoredInput → Prop
  | none : StoredAlike none none
  | some {credentials credentials' : Option Json} {config : Option Json}
      (h : credentials.map blindDocument = credentials'.map blindDocument) :
      StoredAlike (some ⟨credentials, config⟩) (some ⟨credentials', config⟩)

/-- A provider that does not tell credentials apart. -/
def Blind (d : Definition) : Prop :=
  ∀ (credentials credentials' config : Fields) (current current' : Option StoredInput),
    FieldsAlike credentials credentials' → StoredAlike current current' →
    Agree NormalAlike (d.normalize credentials config current)
      (d.normalize credentials' config current')

/-- Credentials are there, or they are not. -/
def BothSome (v v' : Option Json) : Prop := v.isSome = v'.isSome

section Reading

variable {credentials credentials' : Fields} {current current' : Option StoredInput}

theorem isEmpty_alike (h : FieldsAlike credentials credentials') :
    credentials.isEmpty = credentials'.isEmpty := by
  cases h with
  | nil => rfl
  | cons => rfl

/-- Both documents have a key, or none has. -/
theorem lookup_alike (h : FieldsAlike credentials credentials') (key : String) :
    Option.Rel ValueAlike (Json.lookup credentials key) (Json.lookup credentials' key) := by
  induction h with
  | nil => exact .none
  | @cons f f' fields fields' hf _ ih =>
      rw [Json.lookup_cons, Json.lookup_cons, hf.1]
      rcases hv : Json.lookup fields key with - | v <;>
        rcases hv' : Json.lookup fields' key with - | v' <;> rw [hv, hv'] at ih
      · simp only [Option.none_or]
        split
        · exact .some hf.2
        · exact .none
      · cases ih
      · cases ih
      · exact ih

/-- A required string is found in both documents, or in none. -/
theorem requiredString_alike (h : FieldsAlike credentials credentials') (key : String) :
    Agree (fun _ _ => True) (requiredString credentials key)
      (requiredString credentials' key) := by
  have hlookup := lookup_alike h key
  unfold requiredString
  rcases hv : Json.lookup credentials key with - | v <;>
    rcases hv' : Json.lookup credentials' key with - | v' <;> rw [hv, hv'] at hlookup
  · rfl
  · cases hlookup
  · cases hlookup
  · cases hlookup with
    | some hvalue =>
        cases hvalue with
        | refl => exact (agree_refl _).mono fun _ _ _ => True.intro
        | @str s s' hblank =>
            dsimp only
            by_cases hs : trimSpace s = ""
            · rw [if_pos hs, if_pos (hblank.mp hs)]
              rfl
            · rw [if_neg hs, if_neg fun hs' => hs (hblank.mpr hs')]
              exact True.intro

/-- So are all of them. -/
theorem requiredStrings_alike (h : FieldsAlike credentials credentials') (keys : List String) :
    Agree (fun _ _ => True) (requiredStrings credentials keys)
      (requiredStrings credentials' keys) := by
  induction keys with
  | nil => exact True.intro
  | cons key keys ih =>
      have hkey := requiredString_alike h key
      rw [requiredStrings, requiredStrings]
      rcases hv : requiredString credentials key with e | v <;>
        rcases hv' : requiredString credentials' key with e' | v' <;> rw [hv, hv'] at hkey
      · exact hkey
      · exact hkey.elim
      · exact hkey.elim
      · rcases hw : requiredStrings credentials keys with e | w <;>
          rcases hw' : requiredStrings credentials' keys with e' | w' <;> rw [hw, hw'] at ih
        · exact ih
        · exact ih.elim
        · exact ih.elim
        · exact True.intro

theorem hasCredentials_alike (h : StoredAlike current current') :
    hasCredentials current = hasCredentials current' := by
  cases h with
  | none => rfl
  | @some credentials credentials' config h =>
      have hsome := congrArg Option.isSome h
      rwa [Option.isSome_map, Option.isSome_map] at hsome

/-- Both maps are accepted, or none is. -/
theorem normalizeStringMapCredentials_alike (h : FieldsAlike credentials credentials')
    (hstored : StoredAlike current current') (message : String) (keys : List String) :
    Agree BothSome (normalizeStringMapCredentials credentials current message keys)
      (normalizeStringMapCredentials credentials' current' message keys) := by
  have hkeys := requiredStrings_alike h keys
  unfold normalizeStringMapCredentials
  rw [isEmpty_alike h, hasCredentials_alike hstored]
  split
  · split
    · exact rfl
    · exact rfl
  · rcases hv : requiredStrings credentials keys with e | v <;>
      rcases hv' : requiredStrings credentials' keys with e' | v' <;> rw [hv, hv'] at hkeys
    · exact rfl
    · exact hkeys.elim
    · exact hkeys.elim
    · exact rfl

/-- Both tokens are accepted, or none is. -/
theorem normalizeTwilioCredentials_alike (h : FieldsAlike credentials credentials')
    (hstored : StoredAlike current current') :
    Agree BothSome (normalizeTwilioCredentials credentials current)
      (normalizeTwilioCredentials credentials' current') := by
  have hsid := requiredString_alike h "account_sid"
  have htoken := requiredString_alike h "auth_token"
  unfold normalizeTwilioCredentials
  rw [isEmpty_alike h, hasCredentials_alike hstored]
  dsimp only
  split
  · split
    · exact rfl
    · exact rfl
  · rcases hv : requiredString credentials "account_sid" with e | v <;>
      rcases hv' : requiredString credentials' "account_sid" with e' | v' <;> rw [hv, hv'] at hsid
    · exact rfl
    · exact hsid.elim
    · exact hsid.elim
    · rcases hu : requiredString credentials "auth_token" with e | u <;>
        rcases hu' : requiredString credentials' "auth_token" with e' | u' <;>
          rw [hu, hu'] at htoken
      · exact rfl
      · exact htoken.elim
      · exact htoken.elim
      · exact rfl

/-- Documents that look the same are the same, or texts. -/
theorem eq_or_text {v v' : Json} (h : blindDocument v = blindDocument v') :
    v = v' ∨ ∃ s s', v = .str s ∧ v' = .str s' := by
  cases v with
  | str s =>
      cases v' with
      | str s' => exact Or.inr ⟨s, s', rfl, rfl⟩
      | _ => cases h
  | _ =>
      cases v' with
      | str s' => cases h
      | _ => exact Or.inl h

/-- The credentials of Brevo are looked into, and a text has no keys. -/
theorem normalizeBrevoCredentials_alike (h : FieldsAlike credentials credentials')
    (hstored : StoredAlike current current') :
    Agree BothSome (normalizeBrevoCredentials credentials current)
      (normalizeBrevoCredentials credentials' current') := by
  have hkey := requiredString_alike h "api_key"
  unfold normalizeBrevoCredentials
  rw [isEmpty_alike h]
  dsimp only
  split
  · cases hstored with
    | none => exact rfl
    | @some stored stored' config hblind =>
        rcases stored with - | v <;> rcases stored' with - | v'
        · exact rfl
        · cases hblind
        · cases hblind
        · rcases eq_or_text (Option.some.inj hblind) with rfl | ⟨s, s', rfl, rfl⟩
          · exact (agree_refl _).mono fun _ _ => congrArg Option.isSome
          · exact rfl
  · rcases hv : requiredString credentials "api_key" with e | v <;>
      rcases hv' : requiredString credentials' "api_key" with e' | v' <;> rw [hv, hv'] at hkey
    · exact rfl
    · exact hkey.elim
    · exact hkey.elim
    · exact rfl

/-- Both keys are accepted, or none is. -/
theorem normalizeSendGridCredentials_alike (h : FieldsAlike credentials credentials')
    (hstored : StoredAlike current current') :
    Agree BothSome (normalizeSendGridCredentials credentials current)
      (normalizeSendGridCredentials credentials' current') := by
  have hlookup := lookup_alike h "api_key"
  unfold normalizeSendGridCredentials
  rw [isEmpty_alike h, hasCredentials_alike hstored]
  dsimp only
  split
  · split
    · exact rfl
    · exact rfl
  · rcases hv : Json.lookup credentials "api_key" with - | v <;>
      rcases hv' : Json.lookup credentials' "api_key" with - | v' <;> rw [hv, hv'] at hlookup
    · exact rfl
    · cases hlookup
    · cases hlookup
    · cases hlookup with
      | some hvalue =>
          cases hvalue with
          | refl => exact (agree_refl _).mono fun _ _ => congrArg Option.isSome
          | @str s s' hblank =>
              dsimp only
              by_cases hs : trimSpace s = ""
              · rw [if_pos hs, if_pos (hblank.mp hs)]
                exact rfl
              · rw [if_neg hs, if_neg fun hs' => hs (hblank.mpr hs')]
                exact rfl

end Reading

/-- Two documents, of which the config is not computed from credentials. -/
theorem blind_documents {name channel : String}
    {credentialsOf configOf : Fields → Fields → Option StoredInput → Except GoError (Option Json)}
    (hc : ∀ {credentials credentials' config : Fields} {current current' : Option StoredInput},
      FieldsAlike credentials credentials' → StoredAlike current current' →
      Agree BothSome (credentialsOf credentials config current)
        (credentialsOf credentials' config current'))
    (hf : ∀ (credentials credentials' config : Fields) {current current' : Option StoredInput},
      StoredAlike current current' →
      configOf credentials config current = configOf credentials' config current') :
    Blind (documents name channel credentialsOf configOf) := by
  intro credentials credentials' config current current' h hstored
  have hcreds := @hc credentials credentials' config current current' h hstored
  dsimp only [documents]
  rw [hf credentials credentials' config hstored]
  rcases hv : credentialsOf credentials config current with e | v <;>
    rcases hv' : credentialsOf credentials' config current' with e' | v' <;> rw [hv, hv'] at hcreds
  · exact hcreds
  · exact hcreds.elim
  · exact hcreds.elim
  · rcases configOf credentials' config current' with e | u
    · exact rfl
    · exact ⟨rfl, rfl, rfl, hcreds⟩

/-- The definitions of push providers look at no secret. -/
theorem blind_push (name message : String) (keys : List String) :
    Blind (pushDefinition name message keys) := by
  intro credentials credentials' config current current' h hstored
  have hcreds := normalizeStringMapCredentials_alike h hstored message keys
  dsimp only [pushDefinition]
  rcases hv : normalizeStringMapCredentials credentials current message keys with e | v <;>
    rcases hv' : normalizeStringMapCredentials credentials' current' message keys with e' | v' <;>
      rw [hv, hv'] at hcreds
  · exact hcreds
  · exact hcreds.elim
  · exact hcreds.elim
  · exact ⟨rfl, rfl, rfl, hcreds⟩

variable {parseAddress : String → Bool}

/-- **No provider of the catalog tells credentials apart.** -/
theorem blind_of_mem_newCatalog {d : Definition} (hd : d ∈ newCatalog parseAddress) :
    Blind d := by
  simp only [newCatalog, List.mem_cons, List.not_mem_nil, or_false] at hd
  rcases hd with rfl | rfl | rfl | rfl | rfl | rfl | rfl | rfl | rfl | rfl
  · refine blind_documents (fun h hs => normalizeSendGridCredentials_alike h hs) ?_
    intro _ _ config current current' hs
    cases hs <;> rfl
  · refine blind_documents (fun h hs => normalizeBrevoCredentials_alike h hs) ?_
    intro _ _ config current current' hs
    cases hs <;> rfl
  · refine blind_documents (fun h hs => normalizeBrevoCredentials_alike h hs) ?_
    intro _ _ config current current' hs
    cases hs <;> rfl
  · refine blind_documents (fun h hs => normalizeStringMapCredentials_alike h hs _ _) ?_
    intro _ _ config current current' hs
    cases hs <;> rfl
  · refine blind_documents (fun h hs => normalizeStringMapCredentials_alike h hs _ _) ?_
    intro _ _ config current current' hs
    cases hs <;> rfl
  · refine blind_documents (fun h hs => normalizeTwilioCredentials_alike h hs) ?_
    intro _ _ config current current' hs
    cases hs <;> rfl
  · exact blind_push _ _ _
  · exact blind_push _ _ _
  · intro credentials credentials' config current current' _ hs
    have hconfig : normalizeOwner parseAddress config current =
        normalizeOwner parseAddress config current' := by cases hs <;> rfl
    dsimp only [demoEmail]
    rw [hconfig]
    rcases normalizeOwner parseAddress config current' with e | v
    · exact rfl
    · exact ⟨rfl, rfl, rfl, rfl⟩
  · intro credentials credentials' config current current' _ _
    exact ⟨rfl, rfl, rfl, rfl⟩

/-- What is prepared is the same but for the secrets. -/
theorem prepareProviderInput_alike {name channel : String} {credentials credentials' config : Fields}
    {current current' : Option Db.Integration} (h : FieldsAlike credentials credentials')
    (hcurrent : current.map blind = current'.map blind) :
    ∃ r r', prepareProviderInput parseAddress name channel credentials config current = r ∧
      prepareProviderInput parseAddress name channel credentials' config current' = r' ∧
      Agree NormalAlike r r' := by
  have hstored : StoredAlike (current.map fun row => ⟨row.credentials, row.config⟩)
      (current'.map fun row => ⟨row.credentials, row.config⟩) := by
    rcases current with - | r <;> rcases current' with - | r'
    · exact .none
    · cases hcurrent
    · cases hcurrent
    · have hrow : blind r = blind r' := Option.some.inj hcurrent
      have hconfig : (blind r).config = (blind r').config := congrArg Db.Integration.config hrow
      have hcreds : (blind r).credentials = (blind r').credentials :=
        congrArg Db.Integration.credentials hrow
      show StoredAlike (some ⟨r.credentials, r.config⟩) (some ⟨r'.credentials, r'.config⟩)
      rw [show r.config = r'.config from hconfig]
      exact .some hcreds
  simp only [prepareProviderInput]
  generalize toLower (trimSpace name) = name
  generalize toLower (trimSpace channel) = channel
  have hmem : ∀ d, catalogGet parseAddress name = some d → d ∈ newCatalog parseAddress :=
    fun d hd => List.mem_of_find?_eq_some hd
  generalize catalogGet parseAddress name = found at hmem ⊢
  refine ⟨_, _, rfl, rfl, ?_⟩
  rcases found with - | d
  · exact rfl
  · by_cases hchannel : d.channel ≠ channel
    · simp only [if_pos hchannel]
      exact rfl
    · simp only [if_neg hchannel]
      exact blind_of_mem_newCatalog (hmem d rfl) _ _ _ _ _ h hstored

/-! ### Services -/

/-- Two programs of the service that cannot be told apart. -/
abbrev Together (V : α → β → Prop) : Act α → Act β → Prop := Lockstep OpAlike Same V

/-- Encryption makes a text of everything. -/
def Seals (encrypt : Encrypt) : Prop := ∀ v, ∃ s, sealed encrypt v = .ok (.str s)

section Services

variable {encrypt encrypt' : Encrypt} {credentials credentials' : Fields}

/-- The INSERT of two rows that look the same. -/
theorem together_insert {input input' : CreateInput} {n n' : NormalizedInput} {v v' : Json}
    (henv : input.environmentID = input'.environmentID) (hname : n.name = n'.name)
    (hchannel : n.channel = n'.channel) (hconfig : n.configJSON = n'.configJSON)
    (hv : blindDocument v = blindDocument v') :
    Together RowAlike (Integration.insert input n v) (Integration.insert input' n' v') := by
  rw [Integration.insert, Integration.insert, henv, hname, hchannel, hconfig]
  refine (lockstep_perform (.listByChannel ..)).bind fun rows rows' hrows => ?_
  refine (lockstep_perform .newUUID).bind fun id id' hid => ?_
  -- whether another one is active can be seen
  have hactive : ∀ rows : List Db.Integration,
      (rows.map blind).any (fun row => row.isActive) = rows.any fun row => row.isActive := by
    intro rows
    rw [List.any_map]
    rfl
  cases Seen.id.inj hid
  have hsame : rows.any (fun row => row.isActive) = rows'.any fun row => row.isActive := by
    rw [← hactive rows, ← hactive rows', Seen.rows.inj hrows]
  have hop : OpAlike
      (.createIntegration ⟨id, input'.environmentID, n'.name, n'.channel, some v, n'.configJSON,
        !rows.any fun row => row.isActive, !rows.any fun row => row.isActive⟩)
      (.createIntegration ⟨id, input'.environmentID, n'.name, n'.channel, some v', n'.configJSON,
        !rows'.any fun row => row.isActive, !rows'.any fun row => row.isActive⟩) :=
    .createIntegration (by simp only [blind, Option.map_some, hv, hsame])
  exact (lockstep_perform hop).mono fun _ _ => Seen.row.inj

/-- **Creations** with different secrets go the same way. -/
theorem together_create (hseals : Seals encrypt) (hseals' : Seals encrypt')
    (h : FieldsAlike credentials credentials') (environmentID : UUID) (name channel : String)
    (config : Fields) :
    Together RowAlike
      (create parseAddress encrypt ⟨environmentID, name, channel, credentials, config⟩)
      (create parseAddress encrypt' ⟨environmentID, name, channel, credentials', config⟩) := by
  obtain ⟨r, r', hr, hr', hprepared⟩ :=
    @prepareProviderInput_alike parseAddress name channel _ _ config none none h rfl
  rw [create, create, hr, hr']
  refine (lockstep_ofExcept hprepared).bind fun n n' hn => ?_
  obtain ⟨name, channel, column, config⟩ := n
  obtain ⟨name', channel', column', config'⟩ := n'
  have hsome : column.isSome = column'.isSome := hn.credentialsJSON
  rcases column with - | v <;> rcases column' with - | v'
  · exact together_insert rfl hn.name hn.channel hn.configJSON rfl
  · cases hsome
  · cases hsome
  · obtain ⟨s, hs⟩ := hseals v
    obtain ⟨s', hs'⟩ := hseals' v'
    dsimp only
    rw [hs, hs']
    exact @together_insert ⟨environmentID, name, channel, [], []⟩
      ⟨environmentID, name, channel, [], []⟩ _ _ (.str s) (.str s') rfl hn.name hn.channel
      hn.configJSON rfl

/-- **Updates** with different secrets go the same way. -/
theorem together_update (hseals : Seals encrypt) (hseals' : Seals encrypt')
    (h : FieldsAlike credentials credentials') (id environmentID : UUID) (name channel : String)
    (config : Fields) :
    Together RowAlike
      (update parseAddress encrypt ⟨id, environmentID, name, channel, credentials, config⟩)
      (update parseAddress encrypt' ⟨id, environmentID, name, channel, credentials', config⟩) := by
  rw [update, update]
  refine (lockstep_perform (.getIntegrationByID ..)).bind fun row row' hrow => ?_
  have hcurrent : (some row).map blind = (some row').map blind := congrArg some (Seen.row.inj hrow)
  obtain ⟨r, r', hr, hr', hprepared⟩ :=
    @prepareProviderInput_alike parseAddress name channel _ _ config _ _ h hcurrent
  rw [hr, hr']
  refine (lockstep_ofExcept hprepared).bind fun n n' hn => ?_
  obtain ⟨name, channel, column, config⟩ := n
  obtain ⟨name', channel', column', config'⟩ := n'
  obtain rfl : name = name' := hn.name
  obtain rfl : channel = channel' := hn.channel
  obtain rfl : config = config' := hn.configJSON
  have hsome : column.isSome = column'.isSome := hn.credentialsJSON
  -- the rows that are written differ in credentials at most
  have hwrite : ∀ v v' : Option Json, v.map blindDocument = v'.map blindDocument →
      Together RowAlike
        (perform (Op.updateIntegration id environmentID name channel v config))
        (perform (Op.updateIntegration id environmentID name channel v' config)) := by
    intro v v' hv
    exact (lockstep_perform (OpAlike.updateIntegration hv)).mono fun _ _ => Seen.row.inj
  -- credentials are given on both sides, or on neither
  rcases column with - | v <;> rcases column' with - | v'
  · exact hwrite _ _ (congrArg Db.Integration.credentials (Seen.row.inj hrow))
  · cases hsome
  · cases hsome
  · obtain ⟨s, hs⟩ := hseals v
    obtain ⟨s', hs'⟩ := hseals' v'
    dsimp only
    rw [hs, hs']
    exact hwrite (some (.str s)) (some (.str s')) rfl

end Services

theorem together_delete (id environmentID : UUID) :
    Together Eq (Integration.delete id environmentID) (Integration.delete id environmentID) :=
  (lockstep_perform (OpAlike.deleteIntegration ..)).mono fun _ _ _ => rfl

/-! ### Switches -/

section Switches

variable {p p' : Db.Integration}

/-- The ends of an action: an UPDATE of the flags. -/
theorem together_state (id environmentID : UUID) (isActive isPrimary : Bool) :
    Together RowAlike (perform (Op.updateIntegrationState id environmentID isActive isPrimary))
      (perform (Op.updateIntegrationState id environmentID isActive isPrimary)) :=
  (lockstep_perform (OpAlike.updateIntegrationState ..)).mono fun _ _ => Seen.row.inj

theorem together_enable (h : RowAlike p p') : Together RowAlike (enable p) (enable p') := by
  have hid : p.id = p'.id := h.project (·.id) fun _ => rfl
  have henv : p.environmentID = p'.environmentID := h.project (·.environmentID) fun _ => rfl
  have hprimary : p.isPrimary = p'.isPrimary := h.project (·.isPrimary) fun _ => rfl
  rw [enable, enable, hid, henv, hprimary]
  exact together_state ..

theorem together_setPrimary (h : RowAlike p p') :
    Together RowAlike (setPrimary p) (setPrimary p') := by
  have hid : p.id = p'.id := h.project (·.id) fun _ => rfl
  have henv : p.environmentID = p'.environmentID := h.project (·.environmentID) fun _ => rfl
  have hchannel : p.channel = p'.channel := h.project (·.channel) fun _ => rfl
  rw [setPrimary, setPrimary, hid, henv, hchannel]
  exact (lockstep_perform (.clearPrimaryByChannel ..)).bind fun _ _ _ => together_state ..

/-- The fallback is the same row on both sides. -/
theorem together_promotePrimary (h : RowAlike p p') :
    Together RowAlike (promotePrimary p) (promotePrimary p') := by
  have hid : p.id = p'.id := h.project (·.id) fun _ => rfl
  have henv : p.environmentID = p'.environmentID := h.project (·.environmentID) fun _ => rfl
  have hchannel : p.channel = p'.channel := h.project (·.channel) fun _ => rfl
  rw [promotePrimary, promotePrimary, henv, hchannel]
  refine (lockstep_perform (.listByChannel ..)).bind fun rows rows' hrows => ?_
  have hfallback : (fallback p rows).map blind = (fallback p' rows').map blind := by
    rw [fallback, fallback, hid]
    exact find_blind (fun _ => rfl) (Seen.rows.inj hrows)
  generalize fallback p rows = o at hfallback ⊢
  generalize fallback p' rows' = o' at hfallback ⊢
  rcases o with - | r <;> rcases o' with - | r'
  · exact .fail _
  · cases hfallback
  · cases hfallback
  · have hr : RowAlike r r' := Option.some.inj hfallback
    have hrid : r.id = r'.id := hr.project (·.id) fun _ => rfl
    have hrenv : r.environmentID = r'.environmentID := hr.project (·.environmentID) fun _ => rfl
    dsimp only
    rw [hrid, hrenv]
    exact (lockstep_perform (.clearPrimaryByChannel ..)).bind fun _ _ _ => together_state ..

/-- Two rows that look the same are disabled the same way. -/
theorem together_disable (h : RowAlike p p') : Together RowAlike (disable p) (disable p') := by
  have hid : p.id = p'.id := h.project (·.id) fun _ => rfl
  have henv : p.environmentID = p'.environmentID := h.project (·.environmentID) fun _ => rfl
  have hprimary : p.isPrimary = p'.isPrimary := h.project (·.isPrimary) fun _ => rfl
  rw [disable, disable, hid, henv, hprimary]
  split
  · refine (together_promotePrimary h).outcome.bind ?_
    rintro (e | r) (e' | r') hr
    · exact .fail _
    · exact hr.elim
    · exact hr.elim
    · exact together_state ..
  · exact together_state ..

theorem together_updateState (input : StateInput) :
    Together RowAlike (updateState input) (updateState input) := by
  rw [updateState]
  refine (lockstep_perform (.getIntegrationByID ..)).bind fun p p' hp => ?_
  have hrow : RowAlike p p' := Seen.row.inj hp
  rcases input.action with _ | _ | _ | text
  · exact together_enable hrow
  · exact together_disable hrow
  · exact together_setPrimary hrow
  · exact .fail _

end Switches

/-! ### Handlers -/

theorem response_blind (r : Db.Integration) :
    providerResponseFromRecord (blind r) = providerResponseFromRecord r := by
  simp only [providerResponseFromRecord, blind, Option.isSome_map]

theorem response_alike {r r' : Db.Integration} (h : RowAlike r r') :
    providerResponseFromRecord r = providerResponseFromRecord r' :=
  h.project providerResponseFromRecord response_blind

theorem savedReply_alike {saved saved' : Except GoError Db.Integration}
    (h : Agree RowAlike saved saved') (status : ℕ) :
    savedReply status saved = savedReply status saved' := by
  rcases saved with e | row <;> rcases saved' with e' | row'
  · exact congrArg providerError h
  · exact h.elim
  · exact h.elim
  · show (⟨status, .provider _⟩ : Reply) = ⟨status, .provider _⟩
    rw [response_alike h]

theorem getReply_alike {row row' : Except GoError Db.Integration} (h : Agree RowAlike row row') :
    getReply row = getReply row' := by
  rcases row with e | row <;> rcases row' with e' | row'
  · rfl
  · exact h.elim
  · exact h.elim
  · show (⟨200, .provider _⟩ : Reply) = ⟨200, .provider _⟩
    rw [response_alike h]

/-- Lists that look the same get the same reply. -/
theorem listReply_alike {rows rows' : Except GoError (List Db.Integration)}
    (h : Agree (fun rs rs' => rs.map blind = rs'.map blind) rows rows') :
    listReply rows = listReply rows' := by
  rcases rows with e | rows <;> rcases rows' with e' | rows'
  · rfl
  · exact h.elim
  · exact h.elim
  · have hall : ∀ rs : List Db.Integration,
        rs.map providerResponseFromRecord = (rs.map blind).map providerResponseFromRecord := by
      intro rs
      rw [List.map_map]
      apply List.map_congr_left
      intro r _
      exact (response_blind r).symm
    show (⟨200, .providers _⟩ : Reply) = ⟨200, .providers _⟩
    rw [hall rows, hall rows', h]

section Handlers

variable {encrypt encrypt' : Encrypt} {req req' : SaveRequest} {body body' : Option SaveRequest}

theorem SaveAlike.fields (h : SaveAlike req req') :
    FieldsAlike (req.credentials.getD []) (req'.credentials.getD []) := by
  have hcreds := h.credentials
  generalize req.credentials = o at hcreds ⊢
  generalize req'.credentials = o' at hcreds ⊢
  rcases o with - | c <;> rcases o' with - | c'
  · exact .nil
  · cases hcreds
  · cases hcreds
  · cases hcreds with
    | some hfields => exact hfields

/-- A body is taken or not, whatever the credentials are. -/
theorem decodeAndRespond_alike (h : Option.Rel SaveAlike body body') :
    Agree SaveAlike (decodeAndRespond body) (decodeAndRespond body') := by
  cases h with
  | none => exact rfl
  | @some req req' hreq =>
      have hisNone : req.credentials.isNone = req'.credentials.isNone := by
        have hcreds := hreq.credentials
        generalize req.credentials = o at hcreds ⊢
        generalize req'.credentials = o' at hcreds ⊢
        rcases o with - | c <;> rcases o' with - | c'
        · rfl
        · cases hcreds
        · cases hcreds
        · rfl
      have hmissing : req.missing = req'.missing := by
        rw [SaveRequest.missing, SaveRequest.missing, hreq.name, hreq.channel, hisNone]
      rw [decodeAndRespond, decodeAndRespond, hmissing]
      split
      · exact hreq
      · exact rfl

theorem together_createFor (hseals : Seals encrypt) (hseals' : Seals encrypt')
    (h : SaveAlike req req') (environmentID : UUID) (config : Fields) :
    Together Eq (createFor parseAddress encrypt environmentID req config)
      (createFor parseAddress encrypt' environmentID req' config) := by
  rw [createFor, createFor, h.name, h.channel]
  exact (together_create hseals hseals' h.fields ..).outcome.bind fun _ _ hsaved =>
    .ret (savedReply_alike hsaved 201)

theorem decodeAndRespond_ok (h : decodeAndRespond body = .ok req) : body = some req := by
  rcases body with - | req'
  · cases h
  · rw [decodeAndRespond] at h
    split at h
    · cases h
      rfl
    · cases h

/-- The endpoint answers creations with different secrets alike. -/
theorem together_handlerCreate (hseals : Seals encrypt) (hseals' : Seals encrypt')
    (h : Option.Rel SaveAlike body body') (p p' : Handler) (caller : Caller)
    (hdemo : ∀ req, body = some req → namesDemo req.name = false) :
    Together Eq (p.create parseAddress encrypt caller body)
      (p'.create parseAddress encrypt' caller body') := by
  have hdecoded := decodeAndRespond_alike h
  rw [Handler.create, Handler.create]
  rcases caller.environmentID with - | environmentID
  · exact .ret rfl
  dsimp only
  rcases hd : decodeAndRespond body with reply | req <;>
    rcases hd' : decodeAndRespond body' with reply' | req' <;> rw [hd, hd'] at hdecoded
  · exact .ret hdecoded
  · exact hdecoded.elim
  · exact hdecoded.elim
  · have hreq : SaveAlike req req' := hdecoded
    have hname := hdemo req (decodeAndRespond_ok hd)
    have hname' := hname
    rw [hreq.name] at hname'
    dsimp only [Handler.createDecoded]
    rw [if_neg (by rw [hname]; exact Bool.noConfusion),
      if_neg (by rw [hname']; exact Bool.noConfusion), hreq.config]
    exact together_createFor hseals hseals' hreq environmentID _

/-- The endpoint answers updates with different secrets alike. -/
theorem together_handlerUpdate (hseals : Seals encrypt) (hseals' : Seals encrypt')
    (h : Option.Rel SaveAlike body body') (p p' : Handler) (caller : Caller) (providerID : String)
    (hdemo : ∀ req, body = some req → namesDemo req.name = false) :
    Together Eq (p.update parseAddress encrypt caller providerID body)
      (p'.update parseAddress encrypt' caller providerID body') := by
  have hdecoded := decodeAndRespond_alike h
  rw [Handler.update, Handler.update]
  rcases caller.environmentID with - | environmentID
  · exact .ret rfl
  dsimp only
  rcases UUID.parse providerID with - | id
  · exact .ret rfl
  dsimp only
  rcases hd : decodeAndRespond body with reply | req <;>
    rcases hd' : decodeAndRespond body' with reply' | req' <;> rw [hd, hd'] at hdecoded
  · exact .ret hdecoded
  · exact hdecoded.elim
  · exact hdecoded.elim
  · have hreq : SaveAlike req req' := hdecoded
    have hname := hdemo req (decodeAndRespond_ok hd)
    have hname' := hname
    rw [hreq.name] at hname'
    dsimp only [Handler.updateDecoded, Handler.updateConfig]
    rw [if_neg (by rw [hname]; exact Bool.noConfusion),
      if_neg (by rw [hname']; exact Bool.noConfusion), hreq.config, hreq.name, hreq.channel]
    exact (together_update hseals hseals' hreq.fields ..).outcome.bind fun _ _ hsaved =>
      .ret (savedReply_alike hsaved 200)

end Handlers

theorem together_handlerList (caller : Caller) :
    Together Eq (Handler.list caller) (Handler.list caller) := by
  rw [Handler.list]
  rcases caller.environmentID with - | environmentID
  · exact .ret rfl
  · exact (lockstep_ask (OpAlike.listIntegrations environmentID)).bind fun _ _ hrows =>
      .ret (listReply_alike (hrows.mono fun _ _ => Seen.rows.inj))

theorem together_handlerGet (caller : Caller) (providerID : String) :
    Together Eq (Handler.get caller providerID) (Handler.get caller providerID) := by
  rw [Handler.get]
  rcases caller.environmentID with - | environmentID
  · exact .ret rfl
  dsimp only
  rcases UUID.parse providerID with - | id
  · exact .ret rfl
  · exact (lockstep_ask (OpAlike.getIntegrationByID id environmentID)).bind fun _ _ hrow =>
      .ret (getReply_alike (hrow.mono fun _ _ => Seen.row.inj))

theorem together_handlerDelete (caller : Caller) (providerID : String) :
    Together Eq (Handler.delete caller providerID) (Handler.delete caller providerID) := by
  rw [Handler.delete]
  rcases caller.environmentID with - | environmentID
  · exact .ret rfl
  dsimp only
  rcases UUID.parse providerID with - | id
  · exact .ret rfl
  · refine (together_delete id environmentID).outcome.bind fun r r' hr => .ret ?_
    rw [Agree.eq hr]

/-! ### Requests in a row -/

section Serving

variable {w w' : World}

/-- Under the same circumstances statements have the same answers. -/
theorem alike_circumstances (c : Circumstances) {op op' : Op} {s s' : World × ℕ}
    (hop : OpAlike op op') (h : Alike s.1 s'.1 ∧ s.2 = s'.2) :
    Agree (Same op op') (c.answer op s).1 (c.answer op' s').1 ∧
      Alike (c.answer op s).2.1 (c.answer op' s').2.1 ∧
      (c.answer op s).2.2 = (c.answer op' s').2.2 := by
  cases hop with
  | newUUID =>
      obtain ⟨w, n⟩ := s
      obtain ⟨w', n'⟩ := s'
      obtain ⟨hw, rfl⟩ := h
      exact ⟨rfl, hw, rfl⟩
  | getUserByID id => exact c.agree_answer rfl rfl h (alike_answer (.getUserByID id) h.1)
  | getIntegrationByID id environmentID =>
      exact c.agree_answer rfl rfl h (alike_answer (.getIntegrationByID id environmentID) h.1)
  | listIntegrations environmentID =>
      exact c.agree_answer rfl rfl h (alike_answer (.listIntegrations environmentID) h.1)
  | listByChannel environmentID channel =>
      exact c.agree_answer rfl rfl h (alike_answer (.listByChannel environmentID channel) h.1)
  | createIntegration harg =>
      exact c.agree_answer rfl rfl h (alike_answer (.createIntegration harg) h.1)
  | updateIntegration hcreds =>
      exact c.agree_answer rfl rfl h (alike_answer (.updateIntegration hcreds) h.1)
  | updateIntegrationState id environmentID isActive isPrimary =>
      exact c.agree_answer rfl rfl h
        (alike_answer (.updateIntegrationState id environmentID isActive isPrimary) h.1)
  | clearPrimaryByChannel environmentID channel =>
      exact c.agree_answer rfl rfl h (alike_answer (.clearPrimaryByChannel environmentID channel) h.1)
  | deleteIntegration id environmentID =>
      exact c.agree_answer rfl rfl h (alike_answer (.deleteIntegration id environmentID) h.1)

/-- Two programs that cannot be told apart have the same outcome. -/
theorem Together.drive {V : α → β → Prop} {p : Act α} {q : Act β} (h : Together V p q)
    (c : Circumstances) (hw : Alike w w') (n : ℕ) :
    Agree V (p.drive c.answer (w, n)).2.1 (q.drive c.answer (w', n)).2.1 ∧
      Alike (p.drive c.answer (w, n)).2.2.1 (q.drive c.answer (w', n)).2.2.1 ∧
      (p.drive c.answer (w, n)).2.2.2 = (q.drive c.answer (w', n)).2.2.2 :=
  have hanswer : ∀ (op op' : Op) (s s' : World × ℕ), OpAlike op op' →
      Alike s.1 s'.1 ∧ s.2 = s'.2 →
      Agree (Same op op') (c.answer op s).1 (c.answer op' s').1 ∧
        Alike (c.answer op s).2.1 (c.answer op' s').2.1 ∧
        (c.answer op s).2.2 = (c.answer op' s').2.2 :=
    fun _ _ _ _ hop hs => alike_circumstances c hop hs
  Lockstep.drive hanswer h ⟨hw, rfl⟩

theorem replied_alike {p p' : Act Reply} (h : Together Eq p p') (c : Circumstances)
    (hw : Alike w w') :
    (replied c p w).1 = (replied c p' w').1 ∧ Alike (replied c p w).2 (replied c p' w').2 := by
  obtain ⟨hreply, hnext, -⟩ := h.drive c hw 0
  exact ⟨congrArg replyOf hreply.eq, hnext⟩

/-- Both transactions commit, or both are rolled back. -/
theorem concludeTx_alike (c : Circumstances) (hw : Alike w w')
    {t t' : Except GoError Db.Integration × World × ℕ} (hout : Agree RowAlike t.1 t'.1)
    (hnext : Alike t.2.1 t'.2.1) (hn : t.2.2 = t'.2.2) :
    Agree RowAlike (concludeTx c w t).1 (concludeTx c w' t').1 ∧
      Alike (concludeTx c w t).2 (concludeTx c w' t').2 := by
  obtain ⟨out, w₁, n⟩ := t
  obtain ⟨out', w₁', n'⟩ := t'
  obtain rfl : n = n' := hn
  rcases out with e | row <;> rcases out' with e' | row'
  · exact ⟨hout, hw⟩
  · exact hout.elim
  · exact hout.elim
  · rw [concludeTx, concludeTx]
    rcases c.fails n with - | text
    · exact ⟨hout, hnext⟩
    · exact ⟨rfl, hw⟩

/-- The endpoint for flags answers alike. -/
theorem updateState_alike (c : Circumstances) (hw : Alike w w') (caller : Caller)
    (providerID : String) (body : Option String) :
    (Handler.updateState c caller providerID body w).1 =
        (Handler.updateState c caller providerID body w').1 ∧
      Alike (Handler.updateState c caller providerID body w).2
        (Handler.updateState c caller providerID body w').2 := by
  rw [Handler.updateState, Handler.updateState]
  rcases stateInput caller providerID body with reply | input
  · exact ⟨rfl, hw⟩
  · have htx : Agree RowAlike (withinTxUnder c (updateState input) w).1
          (withinTxUnder c (updateState input) w').1 ∧
        Alike (withinTxUnder c (updateState input) w).2
          (withinTxUnder c (updateState input) w').2 := by
      rw [withinTxUnder, withinTxUnder]
      rcases c.fails 0 with - | text
      · obtain ⟨hout, hnext, hn⟩ := Together.drive (together_updateState input) c hw 1
        exact concludeTx_alike c hw hout hnext hn
      · exact ⟨rfl, hw⟩
    exact ⟨savedReply_alike htx.1 200, htx.2⟩

end Serving

/-- The parts of a deployment that hold secrets. -/
structure Deployment where
  handler : Handler
  cipher : Cipher
  encryptionKey : String

/-- A request, who makes it, and what goes wrong meanwhile. -/
structure Exchange where
  caller : Caller
  request : ApiRequest
  circumstances : Circumstances
  /-- What `crypto.Encrypt` draws. -/
  nonce : List UInt8

/-- A request that the handler takes for one about `demo-email`. -/
def demoRequest : ApiRequest → Bool
  | .create (some req) => namesDemo req.name
  | .update _ (some req) => namesDemo req.name
  | _ => false

structure ExchangeAlike (x x' : Exchange) : Prop where
  caller : x.caller = x'.caller
  request : RequestAlike x.request x'.request
  circumstances : x.circumstances = x'.circumstances

section Sessions

variable (parseAddress)

def Deployment.serve (d : Deployment) (x : Exchange) (w : World) : Reply × World :=
  d.handler.serve parseAddress (fun v => .ok (d.cipher.encrypt v d.encryptionKey x.nonce))
    x.circumstances x.caller w x.request

/-- The replies to several requests, one after the other. -/
def Deployment.session (d : Deployment) : List Exchange → World → List Reply × World
  | [], w => ([], w)
  | x :: xs, w =>
      let served := d.serve parseAddress x w
      let rest := d.session xs served.2
      (served.1 :: rest.1, rest.2)

end Sessions

variable {w w' : World}

theorem seals_encrypt (c : Cipher) (key : String) (nonce : List UInt8) :
    Seals fun v => .ok (c.encrypt v key nonce) := fun _ => ⟨_, Cipher.sealed_encrypt⟩

theorem option_rel_refl (body : Option SaveRequest) : Option.Rel SaveAlike body body := by
  rcases body with - | req
  · exact .none
  · refine .some ⟨rfl, rfl, rfl, ?_⟩
    rcases req.credentials with - | fields
    · exact .none
    · apply Option.Rel.some
      induction fields with
      | nil => exact .nil
      | cons f fields ih => exact .cons ⟨rfl, .refl _⟩ ih

/-- One request. -/
theorem serve_alike (d d' : Deployment) {x x' : Exchange} (hx : ExchangeAlike x x')
    (hdemo : demoRequest x.request = false) (hw : Alike w w') :
    (d.serve parseAddress x w).1 = (d'.serve parseAddress x' w').1 ∧
      Alike (d.serve parseAddress x w).2 (d'.serve parseAddress x' w').2 := by
  obtain ⟨caller, request, circumstances, nonce⟩ := x
  obtain ⟨caller', request', circumstances', nonce'⟩ := x'
  obtain rfl : caller = caller' := hx.caller
  obtain rfl : circumstances = circumstances' := hx.circumstances
  -- sealing gives texts that differ at most where texts may differ
  have hseals := seals_encrypt d.cipher d.encryptionKey nonce
  have hseals' := seals_encrypt d'.cipher d'.encryptionKey nonce'
  have hsave : ∀ {body body' : Option SaveRequest}, Option.Rel SaveAlike body body' →
      demoRequest (.create body) = false → ∀ req, body = some req → namesDemo req.name = false := by
    rintro body body' - h req rfl
    exact h
  -- the bodies differ in credentials, or not at all
  cases hx.request with
  | create h =>
      exact replied_alike (together_handlerCreate hseals hseals' h _ _ _ (hsave h hdemo)) _ hw
  | @update providerID body body' h =>
      have hnames : demoRequest (.create body) = false := by
        rcases body with - | req
        · rfl
        · exact hdemo
      exact replied_alike (together_handlerUpdate hseals hseals' h _ _ _ _ (hsave h hnames)) _ hw
  | same =>
      cases request with
      | create body =>
          exact replied_alike (together_handlerCreate hseals hseals' (option_rel_refl body) _ _ _
            (hsave (option_rel_refl body) hdemo)) _ hw
      | list => exact replied_alike (together_handlerList _) _ hw
      | get providerID => exact replied_alike (together_handlerGet _ _) _ hw
      | update providerID body =>
          have hnames : demoRequest (.create body) = false := by
            rcases body with - | req
            · rfl
            · exact hdemo
          exact replied_alike (together_handlerUpdate hseals hseals' (option_rel_refl body) _ _ _ _
            (hsave (option_rel_refl body) hnames)) _ hw
      | updateState providerID body => exact updateState_alike _ hw _ _ _
      | delete providerID => exact replied_alike (together_handlerDelete _ _) _ hw

/-- **No reply depends on a secret**: neither on the text of credentials, nor on the key they are
encrypted with, nor on the credentials of the platform, as long as `demo-email` is not saved. -/
theorem replies_blind {d d' : Deployment} {xs xs' : List Exchange}
    (hxs : List.Forall₂ ExchangeAlike xs xs')
    (hdemo : ∀ x ∈ xs, demoRequest x.request = false) (hw : Alike w w') :
    (d.session parseAddress xs w).1 = (d'.session parseAddress xs' w').1 ∧
      Alike (d.session parseAddress xs w).2 (d'.session parseAddress xs' w').2 := by
  induction hxs generalizing w w' with
  | nil => exact ⟨rfl, hw⟩
  | @cons x x' xs xs' hx _ ih =>
      obtain ⟨hreply, hnext⟩ := serve_alike d d' hx (hdemo x (List.mem_cons_self ..)) hw
      obtain ⟨hreplies, hlast⟩ := ih (fun y hy => hdemo y (List.mem_cons_of_mem x hy)) hnext
      exact ⟨congrArg₂ List.cons hreply hreplies, hlast⟩

namespace Sample

def caller : Caller := ⟨some (UUID.ofDigit 2), none⟩

/-- Somebody connects SendGrid with a key, and looks at the list. -/
def connect (apiKey : String) : List Exchange :=
  [⟨caller, .create (some ⟨"sendgrid", "email", some [("api_key", .str apiKey)],
      some [("from_email", .str "news@example.com")]⟩), {}, []⟩,
    ⟨caller, .list, {}, []⟩]

/-- An empty database. -/
def world : World where
  subscribers := Table.empty _
  workflows := Table.empty _
  templates := Table.empty _
  users := Table.empty _
  integrations := []
  notifications := []
  deliveryAttempts := []

def deployment (encryptionKey : String) : Deployment :=
  ⟨⟨"xkeysib-1", "demo@example.com"⟩, Integration.Sample.oneDocument, encryptionKey⟩

end Sample

theorem connect_alike (h : trimSpace apiKey = "" ↔ trimSpace apiKey' = "") :
    List.Forall₂ ExchangeAlike (Sample.connect apiKey) (Sample.connect apiKey') := by
  have hcreds : FieldsAlike [("api_key", .str apiKey)] [("api_key", .str apiKey')] :=
    .cons ⟨rfl, .str h⟩ .nil
  exact .cons ⟨rfl, .create (.some ⟨rfl, rfl, rfl, .some hcreds⟩), rfl⟩
    (.cons ⟨rfl, .same _, rfl⟩ .nil)

theorem connect_demo : ∀ x ∈ Sample.connect apiKey, demoRequest x.request = false := by
  intro x hx
  simp only [Sample.connect, List.mem_cons, List.not_mem_nil, or_false] at hx
  rcases hx with rfl | rfl
  · show namesDemo "sendgrid" = false
    decide +kernel
  · rfl

/-- Two API keys, the same replies. -/
theorem replies_blind_sendgrid :
    ((Sample.deployment "k1").session (fun _ => true) (Sample.connect "SG.1") Sample.world).1 =
        ((Sample.deployment "k2").session (fun _ => true) (Sample.connect "SG.2")
          Sample.world).1 ∧
      Alike ((Sample.deployment "k1").session (fun _ => true) (Sample.connect "SG.1")
          Sample.world).2
        ((Sample.deployment "k2").session (fun _ => true) (Sample.connect "SG.2")
          Sample.world).2 := by
  have hblank : trimSpace "SG.1" = "" ↔ trimSpace "SG.2" = "" :=
    iff_of_false (by decide +kernel) (by decide +kernel)
  apply replies_blind (connect_alike hblank)
  · exact connect_demo
  · exact Alike.refl _

end Iwifunni.Integration.Secrets
