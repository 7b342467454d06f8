/-
Iwifunni/RateLimit/Limiter.lean

`ratelimit.RateLimiter` (`utils/ratelimit/ratelimit.go`), which the API key middleware
asks before it lets a request through.

The state is one counter in Redis for each key:

    INCR key               the counter, from 1 where there is none
    EXPIRE key 1m          only after an INCR that has returned 1

The comment in the source promises a sliding window.  A counter that expires is a window
of fixed length (`counterOf`): the calls of any minute whatsoever are bounded only if they
keep their distance from the calls of the window before (`isLimit_iff`), and a counter
whose EXPIRE has failed stays for ever.
-/
import Iwifunni.Effect.Prog
import Iwifunni.RateLimit.FixedWindow
import Iwifunni.Types

namespace Iwifunni.RateLimit

open Db Effect Effect.Prog FixedWindow

/-! ### The limiter -/

inductive Op
  | incr (key : String)
  | expire (key : String) (ttl : ℕ)

/-- The values commands return. -/
abbrev Op.Res : Op → Type
  | incr _ => ℕ
  | expire _ _ => Unit

def Op.key : Op → String
  | incr key => key
  | expire key _ => key

abbrev Act (α : Type) : Type := Prog Op.Res GoError α

structure RateLimiter where
  limit : ℤ

/-- `time.Minute`, in the milliseconds of Redis. -/
def minute : ℕ := 60000

def rateLimitKey (serviceID : String) : String := "rate_limit:" ++ serviceID

/-- `Allow`. -/
def RateLimiter.allow (r : RateLimiter) (serviceID : String) : Act Bool := do
  let key := rateLimitKey serviceID
  let count ← perform (Op.incr key)
  if count = 1 then do
    let _ ← perform (Op.expire key minute)
    ret (decide ((count : ℤ) ≤ r.limit))
  else ret (decide ((count : ℤ) ≤ r.limit))

/-! ### Redis -/

structure Counter where
  count : ℕ
  expiresAt : Option ℕ := none

abbrev Keyspace : Type := String → Option Counter

/-- The counter under a key: one that has reached its expiry is gone. -/
def Keyspace.get (ks : Keyspace) (now : ℕ) (key : String) : Option Counter :=
  (ks key).filter fun c => c.expiresAt.all (now < ·)

/-- A call of the limiter: for whom, when, and which commands fail. -/
structure Attempt where
  serviceID : String
  now : ℕ
  incrFails : Option String := none
  expireFails : Option String := none

/-- A command at the time of a call. -/
def Attempt.answer (a : Attempt) : (op : Op) → Keyspace → Except GoError op.Res × Keyspace
  | .incr key, ks => match a.incrFails with
    | some text => (.error (.other text), ks)
    | none => match ks.get a.now key with
      | none => (.ok 1, Function.update ks key (some { count := 1 }))
      | some c => (.ok (c.count + 1),
          Function.update ks key (some { c with count := c.count + 1 }))
  | .expire key ttl, ks => match a.expireFails with
    | some text => (.error (.other text), ks)
    | none => match ks.get a.now key with
      | none => (.ok (), ks)
      | some c => (.ok (), Function.update ks key (some { c with expiresAt := some (a.now + ttl) }))

/-- The answer to a call, and what it leaves in Redis. -/
def RateLimiter.serve (r : RateLimiter) (a : Attempt) (ks : Keyspace) :
    Except GoError Bool × Keyspace :=
  ((r.allow a.serviceID).drive a.answer ks).2

/-- Redis after a sequence of calls. -/
def RateLimiter.after (r : RateLimiter) (as : List Attempt) : Keyspace :=
  as.foldl (fun ks a => (r.serve a ks).2) fun _ => none

/-- The calls of a sequence with their answers. -/
def RateLimiter.answersFrom (r : RateLimiter) :
    List Attempt → Keyspace → List (Attempt × Except GoError Bool)
  | [], _ => []
  | a :: as, ks => (a, (r.serve a ks).1) :: r.answersFrom as (r.serve a ks).2

def RateLimiter.answers (r : RateLimiter) (as : List Attempt) :
    List (Attempt × Except GoError Bool) :=
  r.answersFrom as fun _ => none

/-- The times at which a service has been answered true. -/
def RateLimiter.allowed (r : RateLimiter) (serviceID : String) (as : List Attempt) : List ℕ :=
  ((r.answers as).filter fun p => p.1.serviceID == serviceID && p.2.toOption == some true).map
    fun p => p.1.now

/-- The times at which a service has called. -/
def timesOf (serviceID : String) (as : List Attempt) : List ℕ :=
  (as.filter fun a => a.serviceID == serviceID).map (·.now)

/-! ### One call -/

section Serve

variable {r : RateLimiter} {a : Attempt} {ks : Keyspace} {serviceID : String} {b : Windows}

/-- The counter of the present window. -/
def counterOf (b : Windows) : Option Counter :=
  b.current.head?.map fun start => ⟨b.current.length, some (start + minute)⟩

theorem rateLimitKey_injective {s t : String} (h : rateLimitKey s = rateLimitKey t) : s = t := by
  have htail := congrArg String.toList h
  simp only [rateLimitKey, String.toList_append] at htail
  exact String.toList_inj.mp (List.append_cancel_left htail)

/-- A command changes its own key only. -/
theorem answer_other {op : Op} {key : String} (h : key ≠ op.key) :
    (a.answer op ks).2 key = ks key := by
  cases op with
  | incr key' =>
      simp only [Attempt.answer]
      split
      · rfl
      · split <;> exact Function.update_of_ne h ..
  | expire key' ttl =>
      simp only [Attempt.answer]
      split
      · rfl
      · split
        · rfl
        · exact Function.update_of_ne h ..

/-- A call makes commands on one key. -/
theorem calls_allow (r : RateLimiter) (serviceID : String) :
    Calls (fun op : Op => op.key = rateLimitKey serviceID) (r.allow serviceID) := by
  refine Calls.bind (calls_perform rfl) fun count => ?_
  split
  · exact Calls.bind (calls_perform rfl) fun _ => calls_ret _
  · exact calls_ret _

/-- The counters of other services stay. -/
theorem serve_other (h : a.serviceID ≠ serviceID) :
    (r.serve a ks).2 (rateLimitKey serviceID) = ks (rateLimitKey serviceID) := by
  have hkept : ∀ (op : Op) (ks' : Keyspace), op.key = rateLimitKey a.serviceID →
      ks' (rateLimitKey serviceID) = ks (rateLimitKey serviceID) →
      (a.answer op ks').2 (rateLimitKey serviceID) = ks (rateLimitKey serviceID) := by
    intro op ks' hop hks
    rw [answer_other fun he => h (rateLimitKey_injective (he.trans hop)).symm, hks]
  exact Calls.drive (I := fun ks' : Keyspace =>
    ks' (rateLimitKey serviceID) = ks (rateLimitKey serviceID))
    hkept (calls_allow r a.serviceID) rfl

/-- A call in a window that is over, or in none: the counter starts again. -/
theorem serve_opens (hcounter : ks (rateLimitKey a.serviceID) = counterOf b)
    (hincr : a.incrFails = none) (hopens : Opens minute a.now b) (hexpire : a.expireFails = none) :
    (r.serve a ks).1 = .ok (decide ((1 : ℤ) ≤ r.limit)) ∧
      (r.serve a ks).2 (rateLimitKey a.serviceID) = counterOf ⟨b.current, [a.now]⟩ := by
  have hgone : ks.get a.now (rateLimitKey a.serviceID) = none := by
    rw [Keyspace.get, hcounter, counterOf]
    rcases hcur : b.current with - | ⟨start, rest⟩
    · rfl
    · have hover : start + minute ≤ a.now := hopens start (by simp [hcur])
      simp [Option.filter_eq_none_iff, hover]
  have hfirst : a.answer (.incr (rateLimitKey a.serviceID)) ks =
      (.ok 1, Function.update ks (rateLimitKey a.serviceID) (some { count := 1 })) := by
    simp only [Attempt.answer, hincr, hgone]
  have hstarted : Keyspace.get (Function.update ks (rateLimitKey a.serviceID)
      (some { count := 1 })) a.now (rateLimitKey a.serviceID) = some { count := 1 } := by
    rw [Keyspace.get, Function.update_self]
    rfl
  have hsecond : a.answer (.expire (rateLimitKey a.serviceID) minute)
      (Function.update ks (rateLimitKey a.serviceID) (some { count := 1 })) =
        (.ok (), Function.update ks (rateLimitKey a.serviceID)
          (some ⟨1, some (a.now + minute)⟩)) := by
    simp only [Attempt.answer, hexpire, hstarted, Function.update_idem]
  have hserve : r.serve a ks = (.ok (decide ((1 : ℤ) ≤ r.limit)),
      Function.update ks (rateLimitKey a.serviceID) (some ⟨1, some (a.now + minute)⟩)) := by
    rw [RateLimiter.serve, RateLimiter.allow, drive_perform_bind hfirst, if_pos rfl,
      drive_perform_bind hsecond]
    rfl
  rw [hserve]
  exact ⟨rfl, Function.update_self ..⟩

/-- A call in a window that is not over is counted. -/
theorem serve_counts (hcounter : ks (rateLimitKey a.serviceID) = counterOf b)
    (hincr : a.incrFails = none) (hopens : ¬ Opens minute a.now b) :
    (r.serve a ks).1 = .ok (decide (((b.current.length + 1 : ℕ) : ℤ) ≤ r.limit)) ∧
      (r.serve a ks).2 (rateLimitKey a.serviceID) =
        counterOf ⟨b.previous, b.current ++ [a.now]⟩ := by
  rcases hcur : b.current with - | ⟨start, rest⟩
  · exact absurd (fun start hstart => by simp [hcur] at hstart) hopens
  have hlive : a.now < start + minute := by
    by_contra hover
    refine hopens fun s hs => ?_
    rw [hcur, List.head?_cons, Option.mem_some_iff] at hs
    omega
  have hfound : ks.get a.now (rateLimitKey a.serviceID) =
      some ⟨rest.length + 1, some (start + minute)⟩ := by
    rw [Keyspace.get, hcounter, counterOf, hcur]
    simp [hlive]
  have hfirst : a.answer (.incr (rateLimitKey a.serviceID)) ks =
      (.ok (rest.length + 1 + 1), Function.update ks (rateLimitKey a.serviceID)
        (some ⟨rest.length + 1 + 1, some (start + minute)⟩)) := by
    simp only [Attempt.answer, hincr, hfound]
  have hserve : r.serve a ks =
      (.ok (decide (((rest.length + 1 + 1 : ℕ) : ℤ) ≤ r.limit)),
        Function.update ks (rateLimitKey a.serviceID)
          (some ⟨rest.length + 1 + 1, some (start + minute)⟩)) := by
    rw [RateLimiter.serve, RateLimiter.allow, drive_perform_bind hfirst,
      if_neg (show ¬ rest.length + 1 + 1 = 1 by omega)]
    rfl
  rw [hserve]
  refine ⟨rfl, (Function.update_self ..).trans ?_⟩
  simp [counterOf]

/-- The counter is a window of fixed length, as long as no command that is made fails. -/
theorem serve_window (hcounter : ks (rateLimitKey a.serviceID) = counterOf b)
    (hincr : a.incrFails = none) (hexpire : Opens minute a.now b → a.expireFails = none)
    (hlimit : 1 ≤ r.limit) :
    (r.serve a ks).1 = .ok (decide (Admits minute r.limit.toNat a.now b)) ∧
      (r.serve a ks).2 (rateLimitKey a.serviceID) = counterOf (note minute a.now b) := by
  by_cases hopens : Opens minute a.now b
  · obtain ⟨hanswer, hks⟩ := serve_opens (r := r) hcounter hincr hopens (hexpire hopens)
    rw [hanswer, hks, note_of_opens hopens]
    refine ⟨congrArg Except.ok (decide_eq_decide.mpr ?_), rfl⟩
    rw [Admits, note_of_opens hopens, List.length_singleton]
    omega
  · obtain ⟨hanswer, hks⟩ := serve_counts (r := r) hcounter hincr hopens
    rw [hanswer, hks, note_of_not_opens hopens]
    refine ⟨congrArg Except.ok (decide_eq_decide.mpr ?_), rfl⟩
    rw [Admits, note_of_not_opens hopens, List.length_append, List.length_singleton]
    omega

end Serve

/-! ### A sequence of calls -/

section Sequence

variable {r : RateLimiter} {as : List Attempt} {serviceID : String}

@[simp] theorem after_concat (as : List Attempt) (a : Attempt) :
    r.after (as ++ [a]) = (r.serve a (r.after as)).2 := by
  simp [RateLimiter.after]

theorem answers_concat (as : List Attempt) (a : Attempt) :
    r.answers (as ++ [a]) = r.answers as ++ [(a, (r.serve a (r.after as)).1)] := by
  have hfrom : ∀ (as : List Attempt) (ks : Keyspace), r.answersFrom (as ++ [a]) ks =
      r.answersFrom as ks ++ [(a, (r.serve a (as.foldl (fun ks a => (r.serve a ks).2) ks)).1)] := by
    intro as
    induction as with
    | nil => exact fun _ => rfl
    | cons b as ih => exact fun ks => congrArg ((b, _) :: ·) (ih _)
  exact hfrom as _

theorem timesOf_concat (as : List Attempt) (a : Attempt) :
    timesOf serviceID (as ++ [a]) =
      timesOf serviceID as ++ if a.serviceID = serviceID then [a.now] else [] := by
  by_cases h : a.serviceID = serviceID
  · simp [timesOf, h]
  · simp [timesOf, h]

/-- No INCR fails, and no EXPIRE of a counter that starts. -/
structure Reliable (as : List Attempt) : Prop where
  incr : ∀ a ∈ as, a.incrFails = none
  expire : ∀ before a after, as = before ++ a :: after →
    Opens minute a.now (windows minute (timesOf a.serviceID before)) → a.expireFails = none

theorem Reliable.left {as' : List Attempt} (h : Reliable (as ++ as')) : Reliable as where
  incr a ha := h.incr a (List.mem_append_left _ ha)
  expire before a after he := h.expire before a (after ++ as') (by rw [he]; simp)

/-- The counter of a service is the present one of its windows. -/
theorem after_eq (h : Reliable as) (hlimit : 1 ≤ r.limit) (serviceID : String) :
    r.after as (rateLimitKey serviceID) = counterOf (windows minute (timesOf serviceID as)) := by
  induction as using List.reverseRecOn generalizing serviceID with
  | nil => rfl
  | append_singleton as a ih =>
      rw [after_concat, timesOf_concat]
      by_cases hid : a.serviceID = serviceID
      · subst hid
        rw [if_pos rfl, windows_concat]
        exact (serve_window (ih h.left _) (h.incr a (by simp))
          (h.expire as a [] rfl) hlimit).2
      · rw [if_neg hid, List.append_nil, serve_other hid, ih h.left]

/-- The answer to a call is that of its window. -/
theorem answer_eq {before after : List Attempt} {a : Attempt} (h : Reliable as)
    (hlimit : 1 ≤ r.limit) (has : as = before ++ a :: after) :
    (r.serve a (r.after before)).1 =
      .ok (decide (Admits minute r.limit.toNat a.now
        (windows minute (timesOf a.serviceID before)))) := by
  subst has
  exact (serve_window (after_eq h.left hlimit _) (h.incr a (by simp))
    (h.expire before a after rfl) hlimit).1

/-- The calls answered true are those a window admits. -/
theorem allowed_eq (h : Reliable as) (hlimit : 1 ≤ r.limit) (serviceID : String) :
    r.allowed serviceID as = admitted minute r.limit.toNat (timesOf serviceID as) := by
  induction as using List.reverseRecOn with
  | nil => rfl
  | append_singleton as a ih =>
      have hanswer := answer_eq (r := r) h hlimit rfl
      rw [timesOf_concat]
      by_cases hid : a.serviceID = serviceID
      · subst hid
        rw [if_pos rfl, admitted_concat, ← ih h.left]
        by_cases hadmits : Admits minute r.limit.toNat a.now
            (windows minute (timesOf a.serviceID as))
        · rw [if_pos hadmits]
          rw [decide_eq_true hadmits] at hanswer
          simp [RateLimiter.allowed, answers_concat, hanswer, Except.toOption]
        · rw [if_neg hadmits]
          rw [decide_eq_false hadmits] at hanswer
          simp [RateLimiter.allowed, answers_concat, hanswer, Except.toOption]
      · rw [if_neg hid, List.append_nil, ← ih h.left]
        simp [RateLimiter.allowed, answers_concat, hid]

/-! ### The limit -/

/-- The limit holds for a service: in any minute, and no longer than a minute. -/
structure IsLimit (r : RateLimiter) (serviceID : String) (as : List Attempt) : Prop where
  bounded : ∀ start, (((r.allowed serviceID as).filter fun t =>
    start ≤ t ∧ t < start + minute).length : ℤ) ≤ r.limit
  reopens : ∀ before a after, as = before ++ a :: after → a.serviceID = serviceID →
    (∀ b ∈ before, b.serviceID = serviceID → b.now + minute ≤ a.now) →
      (r.serve a (r.after before)).1 = .ok true

/-- The calls of a service keep their distance. -/
def KeepsDistance (r : RateLimiter) (serviceID : String) (as : List Attempt) : Prop :=
  ∀ before a after, as = before ++ a :: after → a.serviceID = serviceID →
    Staggered minute r.limit.toNat a.now (windows minute (timesOf serviceID before))

theorem sorted_timesOf (h : as.Pairwise fun a b => a.now ≤ b.now) (serviceID : String) :
    (timesOf serviceID as).Pairwise (· ≤ ·) :=
  List.pairwise_map.mpr (h.filter _)

/-- A call of the service in the sequence of all calls. -/
theorem timesOf_eq_append {before' after' : List ℕ} {t : ℕ}
    (h : timesOf serviceID as = before' ++ t :: after') :
    ∃ before a after, as = before ++ a :: after ∧ a.serviceID = serviceID ∧ a.now = t ∧
      timesOf serviceID before = before' := by
  obtain ⟨l₁, l₂, hfilter, rfl, hl₂⟩ := List.map_eq_append_iff.mp h
  obtain ⟨a, l₃, rfl, rfl, -⟩ := List.map_eq_cons_iff.mp hl₂
  obtain ⟨as₁, as₂, rfl, rfl, hfilter₂⟩ := List.filter_eq_append_iff.mp hfilter
  obtain ⟨as₃, as₄, rfl, hnone, hid, -⟩ := List.filter_eq_cons_iff.mp hfilter₂
  refine ⟨as₁ ++ as₃, a, as₄, by simp, by simpa using hid, rfl, ?_⟩
  have hskip : (as₃.filter fun a => a.serviceID == serviceID) = [] := by
    simpa [List.filter_eq_nil_iff] using hnone
  rw [timesOf, List.filter_append, hskip, List.append_nil]

/-- **The limit is one exactly if the calls keep their distance**, as long as no EXPIRE of
a new counter fails: call number `m` after the start of a counter comes a minute after the
call of the counter before whose place it takes. -/
theorem isLimit_iff (hsorted : as.Pairwise fun a b => a.now ≤ b.now) (h : Reliable as)
    (hlimit : 1 ≤ r.limit) : IsLimit r serviceID as ↔ KeepsDistance r serviceID as := by
  have hbounded : Bounded minute r.limit.toNat (timesOf serviceID as) ↔ _ :=
    bounded_iff (by decide) (sorted_timesOf hsorted serviceID)
  have hcast : ∀ n : ℕ, (n : ℤ) ≤ r.limit ↔ n ≤ r.limit.toNat := fun n => by omega
  constructor
  · intro hl before a after has hid
    have hall := hbounded.mp fun start => by
      rw [← allowed_eq h hlimit, ← hcast]
      exact hl.bounded start
    refine hall _ a.now (timesOf serviceID after) ?_
    rw [has, timesOf, List.filter_append, List.filter_cons_of_pos (by simpa using hid),
      List.map_append]
    rfl
  · intro hdistance
    refine ⟨fun start => ?_, fun before a after has hid hquiet => ?_⟩
    · rw [hcast, allowed_eq h hlimit]
      refine hbounded.mpr (fun before' t after' htimes => ?_) start
      obtain ⟨before, a, after, has, hid, rfl, rfl⟩ := timesOf_eq_append htimes
      exact hdistance before a after has hid
    · subst hid
      have hadmits : Admits minute r.limit.toNat a.now
          (windows minute (timesOf a.serviceID before)) := by
        refine admits_of_quiet (by omega) (sorted_timesOf ?_ _) fun x hx => ?_
        · exact (List.pairwise_append.mp (has ▸ hsorted)).1
        · obtain ⟨b, hb, rfl⟩ := List.mem_map.mp hx
          obtain ⟨hb, hid⟩ := List.mem_filter.mp hb
          exact hquiet b hb (by simpa using hid)
      rw [answer_eq h hlimit has, decide_eq_true hadmits]

end Sequence

/-! ### A limit of two -/

namespace Sample

def two : RateLimiter := ⟨2⟩

/-- Calls of one service at some seconds. -/
def calls (seconds : List ℕ) : List Attempt :=
  seconds.map fun s => { serviceID := "a", now := 1000 * s }

/-- The EXPIRE of the first counter fails. -/
def stuck : List Attempt :=
  { serviceID := "a", now := 0, expireFails := some "i/o timeout" } :: calls [60, 120]

theorem reliable_calls (seconds : List ℕ) : Reliable (calls seconds) := by
  have hall : ∀ a ∈ calls seconds, a.incrFails = none ∧ a.expireFails = none := by
    simp [calls]
  refine ⟨fun a ha => (hall a ha).1, fun before a after he _ => (hall a ?_).2⟩
  rw [he]
  exact List.mem_append_right _ (List.mem_cons_self ..)

end Sample

theorem isLimit_iff_steady : IsLimit Sample.two "a" (Sample.calls [0, 1, 60, 61]) ↔
    KeepsDistance Sample.two "a" (Sample.calls [0, 1, 60, 61]) :=
  isLimit_iff (by decide +kernel) (Sample.reliable_calls _) (by decide)

/-- Three calls between the seconds 1 and 61 are allowed, two of them by the next counter.
A counter without an expiry refuses a call after a minute of silence. -/
theorem notLimit_two :
    ((Sample.calls [0, 59, 60, 60]).Pairwise fun a b => a.now ≤ b.now) ∧
    Reliable (Sample.calls [0, 59, 60, 60]) ∧
    Sample.two.allowed "a" (Sample.calls [0, 59, 60, 60]) = [0, 59000, 60000, 60000] ∧
    ¬ IsLimit Sample.two "a" (Sample.calls [0, 59, 60, 60]) ∧
    ¬ IsLimit Sample.two "a" Sample.stuck := by
  refine ⟨by decide +kernel, Sample.reliable_calls _, by decide +kernel, fun h => ?_, fun h => ?_⟩
  · exact absurd (h.bounded 1000) (by decide +kernel)
  · have hquiet : ∀ b ∈ Sample.stuck.take 2, b.serviceID = "a" → b.now + minute ≤ 120000 := by
      decide +kernel
    have hanswer := h.reopens (Sample.stuck.take 2) ⟨"a", 120000, none, none⟩ [] rfl rfl hquiet
    have hrefused : (Sample.two.serve ⟨"a", 120000, none, none⟩
        (Sample.two.after (Sample.stuck.take 2))).1.toOption = some false := by decide +kernel
    rw [hanswer] at hrefused
    cases hrefused

end Iwifunni.RateLimit
