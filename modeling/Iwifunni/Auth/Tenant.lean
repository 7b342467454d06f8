/-
Iwifunni/Auth/Tenant.lean

The tenant of a user under concurrent and failing calls.

`ensurePrimaryTenant` makes up to four inserts, none of them in a transaction,
and takes up again what an earlier call left behind.  What it has done so far
is its phase:

    start --membership found--> member m --default found--> settled m e
      |                            |                            |
      v                            v no default                 ^
    fresh --> founded o ------> joined m --> development m e ---+

It looks only for a membership and for a default environment.  So it goes wrong
in two ways, and in no others (`provisioned_of_run`): a member is inserted
although the user has become a member since the call looked (two
organizations), and a default environment is found in an organization whose
production environment was never inserted (`default_without_production`).

Memberships, organizations and environments are never removed: everything a
phase knows stays true (`Grows`).
-/
import Iwifunni.Auth.Service

namespace Iwifunni.Auth

open Go Db Effect Effect.Prog

/-! ### What the calls do -/

section Calls

variable {hashToken : String → String} {op : Op} {w w' : World}

/-- An organization is created under a new id. -/
theorem call_createOrganization {arg o : Organization}
    (h : Call hashToken (.createOrganization arg) w (.ok o) w') :
    o = arg ∧ w.hasOrganization arg.id = false ∧
      w' = { w with organizations := w.organizations ++ [arg] } := by
  have hanswer := call_ok rfl h
  simp only [World.answer] at hanswer
  split at hanswer
  · cases hanswer
  · next hnew =>
      cases hanswer
      exact ⟨rfl, Bool.eq_false_iff.mpr hnew, rfl⟩

/-- A membership that the constraints allow is created. -/
theorem call_createOrganizationMember {arg : OrganizationMember} {u : Unit}
    (h : Call hashToken (.createOrganizationMember arg) w (.ok u) w') :
    w.memberOk arg = true ∧ w' = { w with members := w.members ++ [arg] } := by
  have hanswer := call_ok rfl h
  simp only [World.answer] at hanswer
  split at hanswer
  · next hok =>
      cases hanswer
      exact ⟨hok, rfl⟩
  · cases hanswer

/-- An environment that the constraints allow is created. -/
theorem call_createEnvironment {arg e : Environment}
    (h : Call hashToken (.createEnvironment arg) w (.ok e) w') :
    e = arg ∧ w.environmentOk arg = true ∧
      w' = { w with environments := w.environments ++ [arg] } := by
  have hanswer := call_ok rfl h
  simp only [World.answer] at hanswer
  split at hanswer
  · next hok =>
      cases hanswer
      exact ⟨rfl, hok, rfl⟩
  · cases hanswer

theorem call_getFirstOrganizationMembershipByUser {u : UUID} {m : OrganizationMember}
    (h : Call hashToken (.getFirstOrganizationMembershipByUser u) w (.ok m) w') :
    m ∈ w.members ∧ m.userID = u ∧ w' = w := by
  have hanswer := call_ok rfl h
  simp only [World.answer] at hanswer
  obtain ⟨hrow, rfl⟩ := Prod.mk.inj hanswer
  have hm := mem_of_earliest (orNoRows_ok hrow)
  rw [List.mem_filter, beq_iff_eq] at hm
  exact ⟨hm.1, hm.2, rfl⟩

theorem call_getDefaultEnvironmentByOrganization {o : UUID} {e : Environment}
    (h : Call hashToken (.getDefaultEnvironmentByOrganization o) w (.ok e) w') :
    e ∈ w.environments ∧ e.organizationID = o ∧ e.isDefault = true ∧ w' = w := by
  have hanswer := call_ok rfl h
  simp only [World.answer] at hanswer
  obtain ⟨hrow, rfl⟩ := Prod.mk.inj hanswer
  have he := orNoRows_ok hrow
  have hp := List.find?_some he
  rw [Bool.and_eq_true, beq_iff_eq] at hp
  exact ⟨List.mem_of_find?_eq_some he, hp.1, hp.2, rfl⟩

theorem call_newUUID {r : Except GoError UUID} (h : Call hashToken .newUUID w r w') : w' = w := by
  cases h with
  | answer hop => cases hop
  | fault => rfl
  | newUUID => rfl

end Calls

/-! ### Nothing is removed -/

/-- Organizations, members and environments stay. -/
structure Grows (w w' : World) : Prop where
  organizations : ∀ o ∈ w.organizations, o ∈ w'.organizations
  members : ∀ m ∈ w.members, m ∈ w'.members
  environments : ∀ e ∈ w.environments, e ∈ w'.environments

namespace Grows

variable {w w' w'' : World}

theorem refl (w : World) : Grows w w := ⟨fun _ h => h, fun _ h => h, fun _ h => h⟩

theorem trans (h : Grows w w') (h' : Grows w' w'') : Grows w w'' :=
  ⟨fun o ho => h'.1 o (h.1 o ho), fun m hm => h'.2 m (h.2 m hm), fun e he => h'.3 e (h.3 e he)⟩

/-- A change of other tables. -/
theorem of_eq (ho : w'.organizations = w.organizations) (hm : w'.members = w.members)
    (he : w'.environments = w.environments) : Grows w w' := by
  constructor
  · rw [ho]
    exact fun _ h => h
  · rw [hm]
    exact fun _ h => h
  · rw [he]
    exact fun _ h => h

theorem hasOrganization (h : Grows w w') {o : UUID} (ho : w.hasOrganization o = true) :
    w'.hasOrganization o = true := by
  unfold World.hasOrganization at ho ⊢
  rw [List.any_eq_true] at ho ⊢
  obtain ⟨r, hr, hid⟩ := ho
  exact ⟨r, h.organizations r hr, hid⟩

end Grows

/-- **No call removes an organization, a member or an environment.** -/
theorem call_grows {hashToken : String → String} {op : Op} {w w' : World}
    {r : Except GoError op.Res} (h : Call hashToken op w r w') : Grows w w' := by
  cases h with
  | answer hop w =>
      -- three calls add a row, and none takes one away
      cases op with
      | createOrganization arg =>
          simp only [World.answer]
          split
          · exact .refl w
          · exact ⟨fun o ho => List.mem_append_left _ ho, fun _ h => h, fun _ h => h⟩
      | createOrganizationMember arg =>
          simp only [World.answer]
          split
          · exact ⟨fun _ h => h, fun m hm => List.mem_append_left _ hm, fun _ h => h⟩
          · exact .refl w
      | createEnvironment arg =>
          simp only [World.answer]
          split
          · exact ⟨fun _ h => h, fun _ h => h, fun e he => List.mem_append_left _ he⟩
          · exact .refl w
      | _ =>
          simp only [World.answer]
          first
            | exact .of_eq rfl rfl rfl
            | (split <;> exact .of_eq rfl rfl rfl)
  | fault => exact .refl _
  | hash => exact .refl _
  | token => exact .of_eq rfl rfl rfl
  | code => exact .refl _
  | sign => exact .refl _
  | mail => exact .refl _
  | now => exact .refl _
  | newUUID => exact .refl _

/-! ### The calls of `ensurePrimaryTenant` -/

/-- What a call has done so far. -/
inductive Phase
  | start
  /-- The user is a member. -/
  | member (m : OrganizationMember)
  /-- The user was no member. -/
  | fresh
  /-- The organization was inserted. -/
  | founded (o : UUID)
  /-- The membership was inserted, or found without a default environment. -/
  | joined (m : OrganizationMember)
  | development (m : OrganizationMember) (e : Environment)
  | settled (m : OrganizationMember) (e : Environment)
  | failed

/-- The phase after a call that was answered; an error ends the program. -/
def Phase.next (u : UUID) : Phase → (op : Op) → Except GoError op.Res → Option Phase
  | p, .newUUID, _ => some p
  | .start, .getFirstOrganizationMembershipByUser u', r =>
      if u' = u then some (match r with
        | .ok m => .member m
        | .error .noRows => .fresh
        | .error _ => .failed)
      else none
  | .member m, .getDefaultEnvironmentByOrganization o, r =>
      if o = m.organizationID then some (match r with
        | .ok e => .settled m e
        | .error .noRows => .joined m
        | .error _ => .failed)
      else none
  | .fresh, .createOrganization _, r => some (match r with
      | .ok o => .founded o.id
      | .error _ => .failed)
  | .founded o, .createOrganizationMember m, r =>
      if m.organizationID = o ∧ m.userID = u then some (match r with
        | .ok _ => .joined m
        | .error _ => .failed)
      else none
  | .joined m, .createEnvironment d, r =>
      if d.organizationID = m.organizationID ∧ d.name = "development" ∧ d.isDefault = true then
        some (match r with
          | .ok e => .development m e
          | .error _ => .failed)
      else none
  | .development m e, .createEnvironment p, r =>
      if p.organizationID = m.organizationID ∧ p.name = "production" ∧ p.isDefault = false then
        some (match r with
          | .ok _ => .settled m e
          | .error _ => .failed)
      else none
  | _, _, _ => none

/-- The user a call is for, and its time. -/
abbrev Task : Type := UUID × Time

/-- The calls of `ensurePrimaryTenant`; only a settled tenant is returned. -/
def tenancy : Protocol Task Op.Res GoError (OrganizationMember × Environment) Phase where
  init _ := .start
  expects _ _ _ := True
  next l p a := p.next l.1 a.1 a.2
  ends _ p out := ∀ m e, out = .ok (m, e) → p = .settled m e

/-- The seeds of an organization, until one is production. -/
theorem keeps_createSeedEnvironments (l : Task) (m : OrganizationMember) :
    Keeps tenancy l (fun p out => ∀ x, out = .ok x → p = .settled m x.1)
      (createSeedEnvironments m.organizationID) (.joined m) := by
  refine keeps_perform_bind (fun d _ => ⟨_, rfl, ?_⟩) fun e _ => ⟨_, rfl, ?_⟩
  · refine keeps_perform_bind (fun development _ => ⟨_, if_pos ⟨rfl, rfl, rfl⟩, ?_⟩)
      fun e _ => ⟨_, if_pos ⟨rfl, rfl, rfl⟩, ?_⟩
    · refine keeps_perform_bind (fun p _ => ⟨_, rfl, ?_⟩) fun e _ => ⟨_, rfl, ?_⟩
      · refine keeps_perform_bind (fun production _ => ⟨_, if_pos ⟨rfl, rfl, rfl⟩, ?_⟩)
          fun e _ => ⟨_, if_pos ⟨rfl, rfl, rfl⟩, ?_⟩
        · rw [keeps_ret]
          rintro x ⟨⟩
          rfl
        · rintro x ⟨⟩
      · rintro x ⟨⟩
    · rintro x ⟨⟩
  · rintro x ⟨⟩

/-- The environments of a membership, then the pair that is returned. -/
theorem keeps_seeded (l : Task) (m : OrganizationMember) :
    Keeps tenancy l (tenancy.ends l)
      (createSeedEnvironments m.organizationID >>= fun x => ret (m, x.1)) (.joined m) := by
  refine keeps_bind (keeps_createSeedEnvironments l m) (fun p x hx => ?_) fun p e _ => ?_
  · rw [keeps_ret, hx x rfl]
    rintro m' e ⟨⟩
    rfl
  · rintro m' e' ⟨⟩

/-- **`ensurePrimaryTenant` goes through its phases.** -/
theorem keeps_ensurePrimaryTenant (l : Task) :
    Keeps tenancy l (tenancy.ends l) (ensurePrimaryTenant l.1 l.2) (tenancy.init l) := by
  have hfail : ∀ p e, tenancy.ends l p (.error e) := by
    rintro p e m e' ⟨⟩
  refine keeps_ask_bind fun r _ => ⟨_, if_pos rfl, ?_⟩
  rcases r with e | m
  · cases e with
    | noRows =>
        refine keeps_perform_bind (fun o _ => ⟨_, rfl, ?_⟩) fun e _ => ⟨_, rfl, hfail _ _⟩
        refine keeps_perform_bind (fun organization _ => ⟨_, rfl, ?_⟩)
          fun e _ => ⟨_, rfl, hfail _ _⟩
        refine keeps_perform_bind (fun id _ => ⟨_, rfl, ?_⟩) fun e _ => ⟨_, rfl, hfail _ _⟩
        refine keeps_perform_bind (fun _ _ => ⟨_, if_pos ⟨rfl, rfl⟩, ?_⟩)
          fun e _ => ⟨_, if_pos ⟨rfl, rfl⟩, hfail _ _⟩
        exact keeps_seeded l ⟨id, organization.id, l.1, "owner", l.2⟩
    | _ => exact keeps_fail.mpr (hfail _ _)
  · refine keeps_ask_bind fun r _ => ⟨_, if_pos rfl, ?_⟩
    rcases r with e | e
    · cases e with
      | noRows => exact keeps_seeded l m
      | _ => exact keeps_fail.mpr (hfail _ _)
    · rw [keeps_ret]
      rintro m' e' ⟨⟩
      rfl

/-! ### Concurrent calls -/

/-- Any number of calls of `ensurePrimaryTenant` at once, for any users; each of their
calls on the store may fail, and a request may be cut short. -/
def provisioning (s : Service) :
    Machine World Task Empty Op.Res GoError (OrganizationMember × Environment) where
  body l := ensurePrimaryTenant l.1 l.2
  spawn _ w w' := w' = w
  sem := Call s.hashToken
  close _ _ w w' := w' = w
  lose _ w w' := w' = w
  env _ _ _ := False

abbrev TenantEvent : Type := Event Task Empty Op.Res GoError (OrganizationMember × Environment)

abbrev TenantPool : Type := Pool World Task Op.Res GoError (OrganizationMember × Environment)

/-- An environment of an organization, by name. -/
def World.hasEnvironment (w : World) (o : UUID) (name : String) : Bool :=
  w.environments.any fun r => r.organizationID == o && r.name == name

/-- The memberships of a user. -/
def World.membersOf (w : World) (u : UUID) : List OrganizationMember :=
  w.members.filter fun r => r.userID == u

/-- The default environments of an organization. -/
def World.defaultsOf (w : World) (o : UUID) : List Environment :=
  w.environments.filter fun r => r.organizationID == o && r.isDefault

/-- A membership of the user `u` is inserted only while there is none, and a default
environment is found for `u` only next to a production environment. -/
def seedsInOrder (u : UUID) (p : TenantPool) : TenantEvent → Bool
  | .call _ ⟨.createOrganizationMember m, .ok _⟩ => m.userID != u || (p.world.membersOf u).isEmpty
  | .call i ⟨.getDefaultEnvironmentByOrganization o, .ok _⟩ =>
      !((p.threads i).any fun t => t.label.1 == u) || p.world.hasEnvironment o "production"
  | _ => true

/-- A call for the user `u` has returned a membership and an environment. -/
def Returned (p : TenantPool) (i : ℕ) (u : UUID) (m : OrganizationMember) (e : Environment) :
    Prop :=
  ∃ nowTs log, p.threads i = some ⟨(u, nowTs), log, .ret (m, e)⟩

/-- The tenant of `u`: one membership, in an organization that `w₀` did not have, with one
default environment and both seed environments. -/
structure Provisioned (w₀ w : World) (u : UUID) (m : OrganizationMember) (e : Environment) :
    Prop where
  member : w.membersOf u = [m]
  created : w₀.hasOrganization m.organizationID = false ∧
    w.hasOrganization m.organizationID = true
  default : w.defaultsOf m.organizationID = [e]
  development : w.hasEnvironment m.organizationID "development" = true
  production : w.hasEnvironment m.organizationID "production" = true

/-- Before the first call for `u`: no membership, and every environment belongs to an
organization. -/
structure Unprovisioned (w : World) (u : UUID) : Prop where
  member : w.membersOf u = []
  environments : ∀ e ∈ w.environments, w.hasOrganization e.organizationID = true

/-! ### The invariant -/

theorem eq_singleton_of_mem {l : List α} {a : α} (hl : l.length ≤ 1) (h : a ∈ l) : l = [a] := by
  rcases l with - | ⟨b, - | ⟨c, l⟩⟩
  · cases h
  · rw [List.mem_singleton.mp h]
  · simp only [List.length_cons] at hl
    omega

theorem World.mem_membersOf {w : World} {u : UUID} {m : OrganizationMember} :
    m ∈ w.membersOf u ↔ m ∈ w.members ∧ m.userID = u := by
  unfold World.membersOf
  rw [List.mem_filter, beq_iff_eq]

theorem World.mem_defaultsOf {w : World} {o : UUID} {e : Environment} :
    e ∈ w.defaultsOf o ↔ e ∈ w.environments ∧ e.organizationID = o ∧ e.isDefault = true := by
  unfold World.defaultsOf
  rw [List.mem_filter, Bool.and_eq_true, beq_iff_eq]

theorem World.hasEnvironment_iff {w : World} {o : UUID} {name : String} :
    w.hasEnvironment o name = true ↔
      ∃ e ∈ w.environments, e.organizationID = o ∧ e.name = name := by
  unfold World.hasEnvironment
  simp only [List.any_eq_true, Bool.and_eq_true, beq_iff_eq]

/-- What the constraints and the calls keep up about the user `u`. -/
structure Tidy (w₀ : World) (u : UUID) (w : World) : Prop where
  organizations : ∀ o, w₀.hasOrganization o = true → w.hasOrganization o = true
  member : ∀ m ∈ w.membersOf u, w₀.hasOrganization m.organizationID = false ∧
    w.hasOrganization m.organizationID = true
  single : (w.membersOf u).length ≤ 1
  defaults : ∀ o, w₀.hasOrganization o = false → (w.defaultsOf o).length ≤ 1
  named : ∀ e ∈ w.environments, e.isDefault = true →
    w₀.hasOrganization e.organizationID = false → e.name = "development"

/-- What a phase of a call for `u` knows. -/
def Phase.Known (w₀ w : World) (u : UUID) : Phase → Prop
  | .founded o => w₀.hasOrganization o = false
  | .member m => m ∈ w.membersOf u
  | .joined m => m ∈ w.membersOf u
  | .development m e => m ∈ w.membersOf u ∧ e ∈ w.defaultsOf m.organizationID
  | .settled m e => m ∈ w.membersOf u ∧ e ∈ w.defaultsOf m.organizationID ∧
      w.hasEnvironment m.organizationID "production" = true
  | _ => True

theorem Grows.membersOf {w w' : World} (h : Grows w w') {u : UUID} {m : OrganizationMember}
    (hm : m ∈ w.membersOf u) : m ∈ w'.membersOf u := by
  rw [World.mem_membersOf] at hm ⊢
  exact ⟨h.members m hm.1, hm.2⟩

theorem Grows.defaultsOf {w w' : World} (h : Grows w w') {o : UUID} {e : Environment}
    (he : e ∈ w.defaultsOf o) : e ∈ w'.defaultsOf o := by
  rw [World.mem_defaultsOf] at he ⊢
  exact ⟨h.environments e he.1, he.2⟩

theorem Grows.hasEnvironment {w w' : World} (h : Grows w w') {o : UUID} {name : String}
    (he : w.hasEnvironment o name = true) : w'.hasEnvironment o name = true := by
  rw [World.hasEnvironment_iff] at he ⊢
  obtain ⟨e, he, hp⟩ := he
  exact ⟨e, h.environments e he, hp⟩

/-- What is known stays known. -/
theorem Phase.Known.mono {w₀ w w' : World} (h : Grows w w') {u : UUID} {p : Phase}
    (hp : p.Known w₀ w u) : p.Known w₀ w' u := by
  cases p with
  | start => exact True.intro
  | member m => exact h.membersOf hp
  | fresh => exact True.intro
  | founded o => exact hp
  | joined m => exact h.membersOf hp
  | development m e => exact ⟨h.membersOf hp.1, h.defaultsOf hp.2⟩
  | settled m e => exact ⟨h.membersOf hp.1, h.defaultsOf hp.2.1, h.hasEnvironment hp.2.2⟩
  | failed => exact True.intro

/-- Before the first call everything is tidy. -/
theorem Unprovisioned.tidy {w : World} {u : UUID} (h : Unprovisioned w u) : Tidy w u w where
  organizations _ ho := ho
  member m hm := by
    rw [h.member] at hm
    cases hm
  single := by
    rw [h.member]
    exact Nat.zero_le 1
  defaults o ho := by
    have hnone : w.defaultsOf o = [] := by
      refine List.filter_eq_nil_iff.mpr fun e he hp => ?_
      rw [Bool.and_eq_true, beq_iff_eq] at hp
      have := h.environments e he
      rw [hp.1, ho] at this
      cases this
    rw [hnone]
    exact Nat.zero_le 1
  named e he _ hnew := by
    rw [h.environments e he] at hnew
    cases hnew

/-- A settled call has provisioned the tenant. -/
theorem Tidy.provisioned {w₀ w : World} {u : UUID} (h : Tidy w₀ u w) {m : OrganizationMember}
    {e : Environment} (hp : (Phase.settled m e).Known w₀ w u) : Provisioned w₀ w u m e := by
  obtain ⟨hm, he, hproduction⟩ := hp
  have hcreated := h.member m hm
  refine ⟨eq_singleton_of_mem h.single hm, hcreated,
    eq_singleton_of_mem (h.defaults _ hcreated.1) he, ?_, hproduction⟩
  rw [World.mem_defaultsOf] at he
  refine World.hasEnvironment_iff.mpr ⟨e, he.1, he.2.1, h.named e he.1 he.2.2 ?_⟩
  rw [he.2.1]
  exact hcreated.1

section Tidy

variable {w₀ w : World} {u : UUID}

/-- A new organization. -/
theorem Tidy.createOrganization (h : Tidy w₀ u w) (arg : Organization) :
    Tidy w₀ u { w with organizations := w.organizations ++ [arg] } := by
  have hmore : ∀ o, w.hasOrganization o = true →
      World.hasOrganization { w with organizations := w.organizations ++ [arg] } o = true := by
    intro o ho
    unfold World.hasOrganization at ho ⊢
    rw [List.any_append, ho, Bool.true_or]
  exact ⟨fun o ho => hmore o (h.organizations o ho),
    fun m hm => ⟨(h.member m hm).1, hmore _ (h.member m hm).2⟩, h.single, h.defaults, h.named⟩

/-- A new member, in an organization that `w₀` did not have. -/
theorem Tidy.createOrganizationMember (h : Tidy w₀ u w) {arg : OrganizationMember}
    (hok : w.memberOk arg = true)
    (hu : arg.userID = u → w.membersOf u = [] ∧ w₀.hasOrganization arg.organizationID = false) :
    Tidy w₀ u { w with members := w.members ++ [arg] } := by
  have horg : w.hasOrganization arg.organizationID = true := by
    unfold World.memberOk at hok
    simp only [Bool.and_eq_true] at hok
    exact hok.1.1
  have hmembers : World.membersOf { w with members := w.members ++ [arg] } u =
      w.membersOf u ++ if arg.userID == u then [arg] else [] := by
    show (w.members ++ [arg]).filter _ = _
    rw [List.filter_append, List.filter_singleton, Bool.cond_eq_ite]
    rfl
  refine ⟨h.organizations, fun m hm => ?_, ?_, h.defaults, h.named⟩
  · rw [hmembers] at hm
    rcases List.mem_append.mp hm with hm | hm
    · exact h.member m hm
    · split at hm
      · next hu' =>
          rw [List.mem_singleton.mp hm]
          exact ⟨(hu (beq_iff_eq.mp hu')).2, horg⟩
      · cases hm
  · rw [hmembers]
    split
    · next hu' =>
        rw [(hu (beq_iff_eq.mp hu')).1]
        exact Nat.le_refl 1
    · rw [List.append_nil]
      exact h.single

/-- A new environment: a default one is called "development". -/
theorem Tidy.createEnvironment (h : Tidy w₀ u w) {arg : Environment}
    (hok : w.environmentOk arg = true) (hname : arg.isDefault = true → arg.name = "development") :
    Tidy w₀ u { w with environments := w.environments ++ [arg] } := by
  have hdefaults : ∀ o, World.defaultsOf { w with environments := w.environments ++ [arg] } o =
      w.defaultsOf o ++ if arg.organizationID == o && arg.isDefault then [arg] else [] := by
    intro o
    show (w.environments ++ [arg]).filter _ = _
    rw [List.filter_append, List.filter_singleton, Bool.cond_eq_ite]
    rfl
  refine ⟨h.organizations, h.member, h.single, fun o ho => ?_, fun e he hdef hnew => ?_⟩
  · rw [hdefaults]
    split
    · next hdef =>
        -- the index on default environments: the organization had none
        have hnone : w.defaultsOf o = [] := by
          refine List.filter_eq_nil_iff.mpr fun e he hp => ?_
          unfold World.environmentOk at hok
          rw [Bool.and_eq_true, List.all_eq_true] at hok
          have hrow := hok.2 e he
          simp_all
        rw [hnone]
        exact Nat.le_refl 1
    · rw [List.append_nil]
      exact h.defaults o ho
  · rcases List.mem_append.mp he with he | he
    · exact h.named e he hdef hnew
    · rw [List.mem_singleton.mp he] at hdef ⊢
      exact hname hdef

end Tidy

/-! ### One call -/

/-- What a successful call does in each phase. -/
inductive Advance (v : UUID) (w : World) : Phase → Op → Phase → World → Prop
  | newUUID (p) : Advance v w p .newUUID p w
  | member {m} : m ∈ w.membersOf v →
      Advance v w .start (.getFirstOrganizationMembershipByUser v) (.member m) w
  | default {m e} : e ∈ w.defaultsOf m.organizationID →
      Advance v w (.member m) (.getDefaultEnvironmentByOrganization m.organizationID)
        (.settled m e) w
  | organization {o} : w.hasOrganization o.id = false →
      Advance v w .fresh (.createOrganization o) (.founded o.id)
        { w with organizations := w.organizations ++ [o] }
  | join {m} : w.memberOk m = true → m.userID = v →
      Advance v w (.founded m.organizationID) (.createOrganizationMember m) (.joined m)
        { w with members := w.members ++ [m] }
  | development {m e} : w.environmentOk e = true → e.organizationID = m.organizationID →
      e.name = "development" → e.isDefault = true →
      Advance v w (.joined m) (.createEnvironment e) (.development m e)
        { w with environments := w.environments ++ [e] }
  | production {m e p} : w.environmentOk p = true → p.organizationID = m.organizationID →
      p.name = "production" → p.isDefault = false →
      Advance v w (.development m e) (.createEnvironment p) (.settled m e)
        { w with environments := w.environments ++ [p] }

/-- The calls of a phase, and what they do when they succeed. -/
theorem advance_of_next {hashToken : String → String} {w w' : World} {v : UUID} {p p' : Phase}
    {op : Op} {a : op.Res} (hn : p.next v op (.ok a) = some p')
    (hc : Call hashToken op w (.ok a) w') : Advance v w p op p' w' := by
  -- one case for each call that a phase allows
  unfold Phase.next at hn
  split at hn
  · cases hn
    rw [call_newUUID hc]
    exact .newUUID _
  · obtain ⟨rfl, hp⟩ := Option.ite_none_right_eq_some.mp hn
    clear hn
    cases hp
    obtain ⟨hm, hu, rfl⟩ := call_getFirstOrganizationMembershipByUser hc
    exact .member (World.mem_membersOf.mpr ⟨hm, hu⟩)
  · obtain ⟨rfl, hp⟩ := Option.ite_none_right_eq_some.mp hn
    clear hn
    cases hp
    obtain ⟨he, ho, hd, rfl⟩ := call_getDefaultEnvironmentByOrganization hc
    exact .default (World.mem_defaultsOf.mpr ⟨he, ho, hd⟩)
  · cases hn
    obtain ⟨hrow, hnew, rfl⟩ := call_createOrganization hc
    rw [hrow]
    exact .organization hnew
  · obtain ⟨⟨rfl, rfl⟩, hp⟩ := Option.ite_none_right_eq_some.mp hn
    clear hn
    cases hp
    obtain ⟨hok, rfl⟩ := call_createOrganizationMember hc
    exact .join hok rfl
  · obtain ⟨⟨ho, hname, hd⟩, hp⟩ := Option.ite_none_right_eq_some.mp hn
    clear hn
    cases hp
    obtain ⟨hrow, hok, rfl⟩ := call_createEnvironment hc
    rw [hrow]
    exact .development hok ho hname hd
  · obtain ⟨⟨ho, hname, hd⟩, hp⟩ := Option.ite_none_right_eq_some.mp hn
    clear hn
    cases hp
    obtain ⟨-, hok, rfl⟩ := call_createEnvironment hc
    exact .production hok ho hname hd
  · cases hn

section Advance

variable {w₀ w w' : World} {u v : UUID} {p p' : Phase} {op : Op}

/-- **A call of `ensurePrimaryTenant` keeps everything tidy**, as long as it makes `u` a
member only if `u` is none, and of a new organization. -/
theorem Tidy.advance (h : Tidy w₀ u w) (ha : Advance v w p op p' w')
    (hu : ∀ m, op = .createOrganizationMember m → p = .founded m.organizationID →
      m.userID = v → m.userID = u →
      w.membersOf u = [] ∧ w₀.hasOrganization m.organizationID = false) :
    Tidy w₀ u w' := by
  cases ha with
  | newUUID => exact h
  | member => exact h
  | default => exact h
  | organization => exact h.createOrganization _
  | join hok hv => exact h.createOrganizationMember hok (hu _ rfl rfl hv)
  | development hok _ hname _ => exact h.createEnvironment hok fun _ => hname
  | production hok _ _ hd =>
      refine h.createEnvironment hok fun hd' => ?_
      rw [hd] at hd'
      cases hd'

/-- **A call adds to what is known**, as long as a default environment is found only next to
a production environment. -/
theorem Phase.Known.advance (ht : Tidy w₀ u w) (h : p.Known w₀ w u)
    (ha : Advance u w p op p' w')
    (hprod : ∀ o, op = .getDefaultEnvironmentByOrganization o →
      w.hasEnvironment o "production" = true) : p'.Known w₀ w' u := by
  have hlast : ∀ {e : Environment}, e ∈ w.environments ++ [e] := fun {e} =>
    List.mem_append_right _ (List.mem_singleton_self e)
  cases ha with
  | newUUID => exact h
  | member hm => exact hm
  | default he => exact ⟨h, he, hprod _ rfl⟩
  | @organization o hnew =>
      show w₀.hasOrganization o.id = false
      rw [Bool.eq_false_iff] at hnew ⊢
      exact fun hold => hnew (ht.organizations _ hold)
  | join hok hv =>
      exact World.mem_membersOf.mpr ⟨List.mem_append_right _ (List.mem_singleton_self _), hv⟩
  | development hok ho _ hd => exact ⟨h, World.mem_defaultsOf.mpr ⟨hlast, ho, hd⟩⟩
  | @production m e q hok ho hname _ =>
      have hgrows : Grows w { w with environments := w.environments ++ [q] } :=
        ⟨fun _ h => h, fun _ h => h, fun e he => List.mem_append_left _ he⟩
      exact ⟨h.1, hgrows.defaultsOf h.2, World.hasEnvironment_iff.mpr ⟨q, hlast, ho, hname⟩⟩

/-- A call that fails adds nothing, except that there is no default environment. -/
theorem Phase.Known.failure {e : GoError} (h : p.Known w₀ w u)
    (hn : p.next v op (.error e) = some p') : p'.Known w₀ w u := by
  unfold Phase.next at hn
  split at hn
  · cases hn
    exact h
  · obtain ⟨-, hp⟩ := Option.ite_none_right_eq_some.mp hn
    cases e <;> cases hp <;> exact True.intro
  · obtain ⟨-, hp⟩ := Option.ite_none_right_eq_some.mp hn
    cases e <;> cases hp <;> first | exact h | exact True.intro
  · cases hn
    exact True.intro
  · obtain ⟨-, hp⟩ := Option.ite_none_right_eq_some.mp hn
    cases hp
    exact True.intro
  · obtain ⟨-, hp⟩ := Option.ite_none_right_eq_some.mp hn
    cases hp
    exact True.intro
  · obtain ⟨-, hp⟩ := Option.ite_none_right_eq_some.mp hn
    cases hp
    exact True.intro
  · cases hn

end Advance

/-! ### Every run -/

section Runs

variable {s : Service} {w₀ : World} {u : UUID}

/-- Everything is tidy, and every call for `u` knows what its phase says. -/
def Sound (w₀ : World) (u : UUID) (v : View World Task Phase) : Prop :=
  Tidy w₀ u v.world ∧
    ∀ i l p, v.phases i = some (l, p) → l.1 = u → p.Known w₀ v.world u

theorem seedsInOrder_join {p : TenantPool} {i : ℕ} {m : OrganizationMember} {x : Unit}
    (h : seedsInOrder u p (.call i ⟨.createOrganizationMember m, .ok x⟩) = true)
    (hu : m.userID = u) : p.world.membersOf u = [] := by
  simp only [seedsInOrder, hu, bne_self_eq_false, Bool.false_or, List.isEmpty_iff] at h
  exact h

theorem seedsInOrder_default {p : TenantPool} {i : ℕ} {o : UUID} {e : Environment}
    (h : seedsInOrder u p (.call i ⟨.getDefaultEnvironmentByOrganization o, .ok e⟩) = true)
    {t} (ht : p.threads i = some t) (hu : t.label.1 = u) :
    p.world.hasEnvironment o "production" = true := by
  simp only [seedsInOrder, ht, Option.any_some, hu, beq_self_eq_true, Bool.not_true,
    Bool.false_or] at h
  exact h

/-- One step keeps it. -/
theorem Sound.step {p : TenantPool} {e : TenantEvent} {v' : View World Task Phase}
    (hk : tenancy.Kept p) (h : Sound w₀ u (tenancy.view p)) (hc : seedsInOrder u p e = true)
    (hs : tenancy.ViewStep (provisioning s) (tenancy.view p) e v') : Sound w₀ u v' := by
  obtain ⟨ht, hknown⟩ := h
  generalize hv : tenancy.view p = v at hs
  rw [hv] at ht hknown
  cases hs with
  | start hi hw =>
      -- a new request knows nothing yet
      cases hw
      refine ⟨ht, fun j l q hj hl => ?_⟩
      rcases update_some_eq_some hj with ⟨-, hq⟩ | ⟨-, hold⟩
      · cases hq
        exact True.intro
      · exact hknown j l q hold hl
  | @call w w' ph i l q q' op r hi hn hcall =>
      have hworld : p.world = w := congrArg View.world hv
      have hgrows := call_grows hcall
      -- a call that fails changes no row
      rcases r with err | a
      · rw [call_error hcall] at hgrows ⊢
        refine ⟨ht, fun j l' q₁ hj hl => ?_⟩
        rcases update_some_eq_some hj with ⟨-, hq⟩ | ⟨-, hold⟩
        · cases hq
          exact (hknown i _ q hi hl).failure hn
        · exact hknown j l' q₁ hold hl
      · -- a call that succeeds takes its request one phase on
        have ha := advance_of_next hn hcall
        refine ⟨ht.advance ha fun m hop hq hlu hu => ?_, fun j l' q₁ hj hl => ?_⟩
        · subst hop
          have hq' := hknown i l q hi (hlu.symm.trans hu)
          rw [hq] at hq'
          rw [← hworld]
          exact ⟨seedsInOrder_join hc hu, hq'⟩
        · rcases update_some_eq_some hj with ⟨-, hq⟩ | ⟨-, hold⟩
          · cases hq
            -- the seed of its organization was drawn in order
            obtain ⟨t, hti, htl, -, -⟩ := hk.thread_of_view (by rw [hv]; exact hi)
            subst hl
            refine (hknown i _ q hi rfl).advance ht ha fun o hop => ?_
            subst hop
            rw [← hworld]
            exact seedsInOrder_default hc hti (by rw [htl])
          · exact (hknown j l' q₁ hold hl).mono hgrows
  | finish hi _ hw =>
      cases hw
      exact ⟨ht, fun j l q hj hl => hknown j l q (update_none_eq_some hj).2 hl⟩
  | lose hi hw =>
      cases hw
      exact ⟨ht, fun j l q hj hl => hknown j l q (update_none_eq_some hj).2 hl⟩
  | env he => exact he.elim

/-- What holds in every pool that a run reaches. -/
theorem sound_of_run (h0 : Unprovisioned w₀ u) {evs : List TenantEvent} {p : TenantPool}
    (h : Run (provisioning s) (fun p e => seedsInOrder u p e = true) ⟨w₀, fun _ => none⟩ evs p) :
    tenancy.Kept p ∧ Sound w₀ u (tenancy.view p) := by
  refine h.view_invariant (P := tenancy) (I := fun _ v => Sound w₀ u v) keeps_ensurePrimaryTenant
    (fun _ _ _ _ _ _ _ _ _ _ _ _ _ _ => True.intro)
    (fun _ _ _ _ hk hI hc hv => hI.step hk hc hv) (Protocol.kept_of_idle fun _ => rfl)
    ⟨h0.tidy, ?_⟩
  rintro i l q ⟨⟩

/-- A call that has returned is settled. -/
theorem settled_of_returned {p : TenantPool} (hk : tenancy.Kept p)
    (hs : Sound w₀ u (tenancy.view p)) {i m e} (h : Returned p i u m e) :
    (Phase.settled m e).Known w₀ p.world u := by
  obtain ⟨nowTs, log, hi⟩ := h
  obtain ⟨q, htrack, hends⟩ := hk i _ hi
  rw [keeps_ret] at hends
  have hq := hs.2 i _ q (Protocol.view_phases_of_thread hi htrack) rfl
  rwa [hends m e rfl] at hq

/-- What was inserted is still there at the end of a run. -/
theorem grows_of_run {C : TenantPool → TenantEvent → Prop} {p p' : TenantPool} {evs}
    (h : Run (provisioning s) C p evs p') : Grows p.world p'.world := by
  refine h.invariant (I := fun _ q => Grows p.world q.world) ?_ (.refl _)
  intro _ q e q' hI _ hs
  cases hs with
  | start _ hw =>
      cases hw
      exact hI
  | call _ hcall => exact hI.trans (call_grows hcall)
  | finish _ hw =>
      cases hw
      exact hI
  | lose _ hw =>
      cases hw
      exact hI
  | env he => exact he.elim

/-- **Tenant provisioning heals itself**, whatever calls fail and however the calls of
several requests interleave, as long as a membership of the user is inserted only while
there is none, and a default environment is found only next to a production environment:
whenever a call returns, the user has one membership, in an organization made by these
calls, with one default environment and both seed environments; and every later call
returns the same. -/
theorem provisioned_of_run (h0 : Unprovisioned w₀ u) {evs : List TenantEvent} {p : TenantPool}
    (h : Run (provisioning s) (fun p e => seedsInOrder u p e = true) ⟨w₀, fun _ => none⟩ evs p)
    {i m e} (hret : Returned p i u m e) :
    Provisioned w₀ p.world u m e ∧
      ∀ evs' p', Run (provisioning s) (fun p e => seedsInOrder u p e = true) p evs' p' →
        ∀ j m' e', Returned p' j u m' e' → m' = m ∧ e' = e := by
  obtain ⟨hk, hs⟩ := sound_of_run h0 h
  have hp : Provisioned w₀ p.world u m e :=
    hs.1.provisioned (settled_of_returned hk hs hret)
  refine ⟨hp, fun evs' p' h' j m' e' hret' => ?_⟩
  obtain ⟨hk', hs'⟩ := sound_of_run h0 (h.trans h')
  have hp' : Provisioned w₀ p'.world u m' e' :=
    hs'.1.provisioned (settled_of_returned hk' hs' hret')
  have hgrows := grows_of_run h'
  have hm : m ∈ p'.world.membersOf u :=
    hgrows.membersOf (by simp only [hp.member, List.mem_singleton])
  rw [hp'.member, List.mem_singleton] at hm
  subst hm
  have he : e ∈ p'.world.defaultsOf m.organizationID :=
    hgrows.defaultsOf (by simp only [hp.default, List.mem_singleton])
  rw [hp'.default, List.mem_singleton] at he
  exact ⟨rfl, he.symm⟩

end Runs

/-! ### Sample runs -/

/-- Between calls nothing happens to the world. -/
theorem provisioning_still (s : Service) (l : Task) (w : World) :
    (provisioning s).spawn l w w ∧ (∀ r, (provisioning s).close l r w w) ∧
      (provisioning s).lose l w w :=
  ⟨rfl, fun _ => rfl, rfl⟩

theorem provisioning_serves (s : Service) {a : Choice} {op : Op} {w : World}
    {r : Except GoError op.Res} {w' : World}
    (h : World.serve s.hashToken a op w = some (r, w')) : (provisioning s).sem op w r w' :=
  World.serve_call h

/-- Schedules of provisioning calls. -/
def provisioningPlayer (s : Service) {C : TenantPool → TenantEvent → Prop}
    (test : TenantPool → TenantEvent → Bool) (hC : ∀ {p e}, test p e = true → C p e) :
    Player (provisioning s) C Choice where
  serve := World.serve s.hashToken
  test := test
  serve_sem := @provisioning_serves s
  cond_of_test := hC
  spawn l w := (provisioning_still s l w).1
  close l r w := (provisioning_still s l w).2.1 r
  drop l w := (provisioning_still s l w).2.2

namespace Sample

/-- Ada has just signed up. -/
def newcomer : World where
  users := [ada]
  verifications := .empty _
  identities := []
  refreshTokens := []
  organizations := []
  members := []
  environments := []
  stored := 0
  drawn := []

theorem unprovisioned_newcomer : Unprovisioned newcomer userID where
  member := rfl
  environments e he := by cases he

/-- The calls up to the organization and its membership. -/
def founding : List Choice :=
  [.run, .uuid organizationID, .run, .uuid (.ofDigit 3), .run]

/-- One call fails to insert the first environment, the next one makes both up, and a third
one finds them. -/
def healing : List (Turn Task Choice) :=
  [.start 0 (userID, 1)] ++ Turn.calls 0 (founding ++ [.uuid (.ofDigit 4), .fault]) ++
  [.finish 0, .start 1 (userID, 2)] ++
  Turn.calls 1 [.run, .run, .uuid (.ofDigit 5), .run, .uuid (.ofDigit 6), .run] ++
  [.start 2 (userID, 3)] ++ Turn.calls 2 [.run, .run]

/-- One call fails to insert the second environment, and the next one finds the first. -/
def half : List (Turn Task Choice) :=
  [.start 0 (userID, 1)] ++
  Turn.calls 0 (founding ++ [.uuid (.ofDigit 4), .run, .uuid (.ofDigit 5), .fault]) ++
  [.finish 0, .start 1 (userID, 2)] ++ Turn.calls 1 [.run, .run]

end Sample

/-- The healing run meets the conditions. -/
theorem provisioned_of_run_healing : ∃ evs p m e,
    Run (provisioning Sample.service) (fun p e => seedsInOrder Sample.userID p e = true)
      ⟨Sample.newcomer, fun _ => none⟩ evs p ∧
    Returned p 2 Sample.userID m e ∧ Provisioned Sample.newcomer p.world Sample.userID m e := by
  obtain ⟨evs, p, hrun, hcheck⟩ := Player.run_of_check
    (p := provisioningPlayer Sample.service
      (C := fun p e => seedsInOrder Sample.userID p e = true) (seedsInOrder Sample.userID) id)
    Sample.healing ⟨Sample.newcomer, fun _ => none⟩
    (fun _ p => p.result 2 |>.any fun x => x.1 == (Sample.userID, 3) && x.2.isOk)
    (by decide +kernel)
  rcases hres : p.result 2 with - | ⟨l, e | ⟨m, e⟩⟩
  · simp only [hres, Option.any_none, Bool.false_eq_true] at hcheck
  · simp only [hres, Option.any_some, Except.isOk, Except.toBool, Bool.and_false,
      Bool.false_eq_true] at hcheck
  · simp only [hres, Option.any_some, Except.isOk, Except.toBool, Bool.and_true,
      beq_iff_eq] at hcheck
    subst hcheck
    obtain ⟨log, hi⟩ := Pool.thread_of_result hres
    have hret : Returned p 2 Sample.userID m e := ⟨3, log, hi⟩
    exact ⟨evs, p, m, e, hrun, hret,
      (provisioned_of_run Sample.unprovisioned_newcomer hrun hret).1⟩

/-- A call returns a tenant without a production environment. -/
theorem default_without_production : ∃ evs p m e,
    Unprovisioned Sample.newcomer Sample.userID ∧
    Run (provisioning Sample.service) (fun _ _ => True) ⟨Sample.newcomer, fun _ => none⟩ evs p ∧
    Returned p 1 Sample.userID m e ∧
    ¬ Provisioned Sample.newcomer p.world Sample.userID m e := by
  obtain ⟨evs, p, hrun, hcheck⟩ := Player.run_of_check
    (p := provisioningPlayer Sample.service (C := fun _ _ => True) (fun _ _ => true)
      fun _ => True.intro)
    Sample.half ⟨Sample.newcomer, fun _ => none⟩
    (fun _ p => p.result 1 |>.any fun x => x.1 == (Sample.userID, 2) && x.2.isOk &&
      p.world.environments.all fun e => e.name != "production")
    (by decide +kernel)
  rcases hres : p.result 1 with - | ⟨l, e | ⟨m, e⟩⟩
  · simp only [hres, Option.any_none, Bool.false_eq_true] at hcheck
  · simp only [hres, Option.any_some, Except.isOk, Except.toBool, Bool.and_false, Bool.false_and,
      Bool.false_eq_true] at hcheck
  · simp only [hres, Option.any_some, Except.isOk, Except.toBool, Bool.and_true,
      Bool.and_eq_true, beq_iff_eq] at hcheck
    obtain ⟨rfl, hnone⟩ := hcheck
    obtain ⟨log, hi⟩ := Pool.thread_of_result hres
    refine ⟨evs, p, m, e, Sample.unprovisioned_newcomer, hrun, ⟨2, log, hi⟩, fun hp => ?_⟩
    obtain ⟨r, hr, -, hname⟩ := World.hasEnvironment_iff.mp hp.production
    have hall := List.all_eq_true.mp hnone r hr
    rw [hname] at hall
    cases hall

end Iwifunni.Auth
