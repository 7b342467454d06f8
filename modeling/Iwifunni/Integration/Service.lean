/-
Iwifunni/Integration/Service.lean

The integrations of an environment (`integration/service.go`).

    Create        normalize, encrypt, INSERT; active and primary if the channel has
                  no active integration yet
    Update        normalize against what is stored, UPDATE of name, channel and documents
    Delete        DELETE
    UpdateState   'enable', 'disable' or 'set_primary', in one transaction

`crypto.Encrypt` is a parameter of a call: it draws a nonce.
-/
import Iwifunni.Go.Quote
import Iwifunni.Integration.Providers
import Iwifunni.Store

namespace Iwifunni.Integration

open Go Db Effect Effect.Prog Store

/-- `crypto.Encrypt` under the key of the service, with the nonce of one call. -/
abbrev Encrypt : Type := Json → Except GoError String

/-- `ErrUnsupportedProvider`. -/
def unsupportedProvider (name : String) : GoError :=
  .other (if name = "" then "unsupported provider" else "unsupported provider: " ++ name)

structure CreateInput where
  environmentID : UUID
  name : String
  channel : String
  credentials : Fields
  config : Fields

structure UpdateInput where
  id : UUID
  environmentID : UUID
  name : String
  channel : String
  credentials : Fields
  config : Fields

/-- `StateAction`. -/
inductive StateAction
  | enable
  | disable
  | setPrimary
  | unknown (text : String)

structure StateInput where
  id : UUID
  environmentID : UUID
  action : StateAction

section Service

variable (parseAddress : String → Bool)

/-- `prepareProviderInput`. -/
def prepareProviderInput (name channel : String) (credentials config : Fields)
    (current : Option Db.Integration) : Except GoError NormalizedInput :=
  let normalizedName := toLower (trimSpace name)
  match catalogGet parseAddress normalizedName with
  | none => .error (unsupportedProvider normalizedName)
  | some definition =>
      if definition.channel ≠ toLower (trimSpace channel) then
        .error (unsupportedProvider normalizedName)
      else definition.normalize credentials config
        (current.map fun row => ⟨row.credentials, row.config⟩)

/-- The credentials column: quotation marks are put around the encrypted credentials, and
the database reads the text. -/
def sealed (encrypt : Encrypt) (credentials : Json) : Except GoError Json := do
  let encCreds ← encrypt credentials
  match unquote ("\"" ++ encCreds ++ "\"") with
  | some s => return .str s
  | none => .error (.other "invalid input syntax for type json")

/-- `Service.Create`. -/
def create (encrypt : Encrypt) (input : CreateInput) : Act Db.Integration := do
  let n ← ofExcept (prepareProviderInput parseAddress input.name input.channel
    input.credentials input.config none)
  let credentials ← match n.credentialsJSON with
    | some v => ofExcept (sealed encrypt v)
    | none => ret (.obj [])
  let existing ← perform (Op.listByChannel input.environmentID n.channel)
  let hasActive := existing.any fun row => row.isActive
  let id ← perform Op.newUUID
  perform (Op.createIntegration {
    id := id
    environmentID := input.environmentID
    name := n.name
    channel := n.channel
    credentials := some credentials
    config := n.configJSON
    isActive := !hasActive
    isPrimary := !hasActive })

/-- `Service.Update`. -/
def update (encrypt : Encrypt) (input : UpdateInput) : Act Db.Integration := do
  let current ← perform (Op.getIntegrationByID input.id input.environmentID)
  let n ← ofExcept (prepareProviderInput parseAddress input.name input.channel
    input.credentials input.config (some current))
  let credentials ← match n.credentialsJSON with
    | some v => ofExcept ((sealed encrypt v).map some)
    | none => ret current.credentials
  perform (Op.updateIntegration input.id input.environmentID n.name n.channel credentials
    n.configJSON)

end Service

/-- `Service.Delete`. -/
def delete (id environmentID : UUID) : Act Unit :=
  perform (Op.deleteIntegration id environmentID)

/-! ### `UpdateState` -/

/-- `enable`. -/
def enable (p : Db.Integration) : Act Db.Integration :=
  perform (Op.updateIntegrationState p.id p.environmentID true p.isPrimary)

/-- `setPrimary`: what comes after clearing is also how another one is promoted. -/
def setPrimary (p : Db.Integration) : Act Db.Integration := do
  perform (Op.clearPrimaryByChannel p.environmentID p.channel)
  perform (Op.updateIntegrationState p.id p.environmentID true true)

/-- The candidate that `promotePrimary` takes. -/
def fallback (exclude : Db.Integration) (rows : List Db.Integration) : Option Db.Integration :=
  rows.find? fun candidate => candidate.id != exclude.id && candidate.isActive

/-- `promotePrimary`. -/
def promotePrimary (exclude : Db.Integration) : Act Db.Integration := do
  let rows ← perform (Op.listByChannel exclude.environmentID exclude.channel)
  match fallback exclude rows with
  | none => fail (.other "no eligible fallback provider")
  | some candidate => do
      perform (Op.clearPrimaryByChannel exclude.environmentID exclude.channel)
      perform (Op.updateIntegrationState candidate.id candidate.environmentID true true)

/-- `disable`: an error of `promotePrimary` gets a text of its own. -/
def disable (p : Db.Integration) : Act Db.Integration := do
  if p.isPrimary then
    match ← (promotePrimary p).outcome with
    | .ok _ => perform (Op.updateIntegrationState p.id p.environmentID false false)
    | .error _ => fail (.other
        "cannot disable primary provider: no fallback active provider available")
  else perform (Op.updateIntegrationState p.id p.environmentID false false)

/-- The body of the transaction of `Service.UpdateState`. -/
def updateState (input : StateInput) : Act Db.Integration := do
  let p ← perform (Op.getIntegrationByID input.id input.environmentID)
  match input.action with
  | .enable => enable p
  | .disable => disable p
  | .setPrimary => setPrimary p
  | .unknown text => fail (.other ("unknown action: " ++ text))

/-! ### What a provider makes of its input -/

/-- A normalized input names its provider. -/
def Definition.Names (d : Definition) : Prop :=
  ∀ credentials config current n, d.normalize credentials config current = .ok n →
    n.name = d.name ∧ n.channel = d.channel

/-- Providers that compute two documents and put their name and channel beside them. -/
theorem names_of_documents {name channel : String}
    {credentialsOf configOf : Fields → Fields → Option StoredInput → Except GoError (Option Json)} :
    Definition.Names ⟨name, channel, fun credentials config current => do
      let credentialsJSON ← credentialsOf credentials config current
      let configJSON ← configOf credentials config current
      return ⟨name, channel, credentialsJSON, configJSON⟩⟩ := by
  intro credentials config current n h
  dsimp only at h
  rcases hc : credentialsOf credentials config current with e | credentialsJSON
  · rw [hc] at h
    cases h
  · rcases hf : configOf credentials config current with e | configJSON
    · rw [hc, hf] at h
      cases h
    · rw [hc, hf] at h
      cases h
      exact ⟨rfl, rfl⟩

/-- The push providers have no config to compute. -/
theorem names_pushDefinition (name message : String) (keys : List String) :
    (pushDefinition name message keys).Names := by
  intro credentials config current n h
  dsimp only [pushDefinition] at h
  rcases hc : normalizeStringMapCredentials credentials current message keys with e | v
  · rw [hc] at h
    cases h
  · rw [hc] at h
    cases h
    exact ⟨rfl, rfl⟩

variable {parseAddress : String → Bool}

theorem names_demoEmail : (demoEmail parseAddress).Names := by
  intro credentials config current n h
  dsimp only [demoEmail] at h
  rcases hc : normalizeOwner parseAddress config current with e | v
  · rw [hc] at h
    cases h
  · rw [hc] at h
    cases h
    exact ⟨rfl, rfl⟩

theorem names_demoSMS : demoSMS.Names := by
  intro credentials config current n h
  cases h
  exact ⟨rfl, rfl⟩

/-- Every provider of the catalog names itself. -/
theorem names_of_mem_newCatalog {d : Definition} (h : d ∈ newCatalog parseAddress) : d.Names := by
  simp only [newCatalog, List.mem_cons, List.not_mem_nil, or_false] at h
  rcases h with rfl | rfl | rfl | rfl | rfl | rfl | rfl | rfl | rfl | rfl
  · exact names_of_documents
  · exact names_of_documents
  · exact names_of_documents
  · exact names_of_documents
  · exact names_of_documents
  · exact names_of_documents
  · exact names_pushDefinition _ _ _
  · exact names_pushDefinition _ _ _
  · exact names_demoEmail
  · exact names_demoSMS

/-- **What is stored is what the catalog knows**: a provider under its own name and
channel, which are those that were asked for. -/
theorem prepareProviderInput_ok {name channel : String} {credentials config : Fields}
    {current : Option Db.Integration} {n : NormalizedInput}
    (h : prepareProviderInput parseAddress name channel credentials config current = .ok n) :
    ∃ d, catalogGet parseAddress n.name = some d ∧ d.channel = n.channel ∧
      n.name = toLower (trimSpace name) ∧ n.channel = toLower (trimSpace channel) := by
  unfold prepareProviderInput at h
  dsimp only at h
  rcases hd : catalogGet parseAddress (toLower (trimSpace name)) with - | d
  · rw [hd] at h
    cases h
  · rw [hd] at h
    dsimp only at h
    by_cases hchannel : d.channel = toLower (trimSpace channel)
    · rw [if_neg (not_not.mpr hchannel)] at h
      obtain ⟨hname, hn⟩ := names_of_mem_newCatalog (List.mem_of_find?_eq_some hd) _ _ _ _ h
      have hkey : d.name = toLower (trimSpace name) := by
        simpa using List.find?_some hd
      refine ⟨d, ?_, hn.symm, hname.trans hkey, hn.trans hchannel⟩
      rw [hname, hkey, hd]
    · rw [if_pos hchannel] at h
      cases h

end Iwifunni.Integration
