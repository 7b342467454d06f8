/-
Iwifunni/Workflow/Sequential.lean

Runs of the engine in which one activity is served after the other and nothing
fails.  They can be computed (`World.acts`), and every one of them is a run of
the engine (`run_acts`); what the engine does on a concrete definition is shown
with them.
-/
import Iwifunni.Workflow.Engine

namespace Iwifunni.Workflow

open Go Db Effect Effect.Prog

/-- One thing that happens to an engine that is otherwise idle. -/
inductive Action
  /-- `TriggerEvent` is served. -/
  | trigger (environmentID : UUID) (input : TriggerEventInput)
  /-- `TriggerEvent` is served, and `uuid.New` draws the identifier of the execution. -/
  | triggerAs (executionID environmentID : UUID) (input : TriggerEventInput)
  /-- A worker handles the job at a place of the queue. -/
  | handle (place : ℕ)
  | change (c : Change)

namespace World

/-- The world after a worker has taken up and handled a job. -/
def handle (s : Service) (w : World) (t : Task) : World :=
  let d := (Activity.body s (.step t)).drive answer { w with queue := w.queue.erase t }
  d.2.2.closeTask s.maxRetry t d.2.1

/-- The world after a trigger has been served. -/
def trigger (s : Service) (w : World) (environmentID : UUID) (input : TriggerEventInput) :
    World :=
  ((Activity.body s (.trigger environmentID input)).drive answer w).2.2

/-- The world answers, and `uuid.New` draws a given identifier. -/
def drawing (u : UUID) : (op : Op) → World → Except GoError op.Res × World
  | .newUUID, w => (.ok u, w)
  | op, w => answer op w

/-- The world after a trigger has been served whose execution gets the identifier `u`. -/
def triggerAs (s : Service) (w : World) (u environmentID : UUID) (input : TriggerEventInput) :
    World :=
  ((Activity.body s (.trigger environmentID input)).drive (drawing u) w).2.2

def act (s : Service) (w : World) : Action → World
  | .trigger environmentID input => w.trigger s environmentID input
  | .triggerAs u environmentID input => w.triggerAs s u environmentID input
  | .handle place =>
      match w.queue[place]? with
      | some t => w.handle s t
      | none => w
  | .change c => c.apply w

def acts (s : Service) : World → List Action → World
  | w, [] => w
  | w, a :: as => acts s (w.act s a) as

end World

variable {s : Service} {C : Pool World Activity Op.Res GoError Unit → EngineEvent → Prop}

/-- The calls and the end of an activity. -/
def isProgress : EngineEvent → Prop
  | .call _ _ | .finish _ _ => True
  | _ => False

/-- One activity on its own is a run of the engine. -/
theorem run_activity {l : Activity} (test : World → Answered Op.Res GoError → Bool)
    (hcall : ∀ w log prog op, test w ⟨op, (World.answer op w).1⟩ = true →
      C ⟨w, Function.update (fun _ => none) 0 (some ⟨l, log, prog⟩)⟩
        (.call 0 ⟨op, (World.answer op w).1⟩))
    (hfinish : ∀ p out, C p (.finish 0 out)) {w w₁ w' : World}
    (hstart : C (idle w) (.start 0 l)) (hspawn : (engine s).spawn l w w₁)
    (htest : (l.body s).driveAll World.answer test w₁ = true)
    (hclose : (engine s).close l ((l.body s).drive World.answer w₁).2.1
      ((l.body s).drive World.answer w₁).2.2 w') :
    ∃ evs, Run (engine s) C (idle w) evs (idle w') :=
  Run.drive _ test Call.answer hstart hcall hfinish hspawn htest hclose

/-- Every call of an activity on its own happens in a run of the engine. -/
theorem run_activity_call {l : Activity} (hC : ∀ p e, isProgress e → C p e) {w w₁ : World}
    (hstart : C (idle w) (.start 0 l)) (hspawn : (engine s).spawn l w w₁)
    {a : Answered Op.Res GoError} (hmem : a ∈ ((l.body s).drive World.answer w₁).1) :
    ∃ evs p p', Run (engine s) C (idle w) evs p ∧ Step (engine s) p (.call 0 a) p' := by
  have hs : Step (engine s) (idle w) (.start 0 l)
      ⟨w₁, Function.update (fun _ => none) 0 (some ⟨l, [], l.body s⟩)⟩ := .start rfl hspawn
  obtain ⟨evs, p, p', h, hcall⟩ := Run.call_of_mem (M := engine s) (C := C) (l := l) World.answer
    (fun _ _ => true) (fun _ => none) Call.answer (fun _ _ _ _ _ => hC _ _ True.intro)
    (l.body s) w₁ [] (driveAll_true ..) hmem
  exact ⟨_, p, p', (Run.single hstart hs).trans h, hcall⟩

theorem run_handle (hC : ∀ p e, isProgress e → C p e) (w : World) {t : Task} (ht : t ∈ w.queue)
    (hstart : C (idle w) (.start 0 (.step t))) :
    ∃ evs, Run (engine s) C (idle w) evs (idle (w.handle s t)) :=
  run_activity (l := .step t) (fun _ _ => true) (fun _ _ _ _ _ => hC _ _ True.intro)
    (fun _ _ => hC _ _ True.intro) hstart ⟨ht, rfl⟩ (driveAll_true ..) rfl

theorem run_trigger (hC : ∀ p e, isProgress e → C p e) (w : World) (environmentID : UUID)
    (input : TriggerEventInput) (hstart : C (idle w) (.start 0 (.trigger environmentID input))) :
    ∃ evs, Run (engine s) C (idle w) evs (idle (w.trigger s environmentID input)) :=
  run_activity (l := .trigger environmentID input) (fun _ _ => true)
    (fun _ _ _ _ _ => hC _ _ True.intro) (fun _ _ => hC _ _ True.intro) hstart rfl (driveAll_true ..) rfl

theorem call_drawing (u : UUID) (op : Op) (w : World) :
    Call op w (World.drawing u op w).1 (World.drawing u op w).2 := by
  cases op with
  | newUUID => exact .newUUID w u
  | _ => exact .answer _ w

theorem run_triggerAs (hC : ∀ p e, isProgress e → C p e) (w : World) (u environmentID : UUID)
    (input : TriggerEventInput) (hstart : C (idle w) (.start 0 (.trigger environmentID input))) :
    ∃ evs, Run (engine s) C (idle w) evs (idle (w.triggerAs s u environmentID input)) :=
  Run.drive (World.drawing u) (fun _ _ => true) (call_drawing u) hstart
    (fun _ _ _ _ _ => hC _ _ True.intro) (fun _ _ => hC _ _ True.intro) rfl (driveAll_true ..) rfl

/-- An action is a run of the engine. -/
theorem run_act (hC : ∀ p e, isProgress e → C p e) (w : World) (a : Action)
    (hstart : ∀ l, C (idle w) (.start 0 l)) (henv : ∀ c, a = .change c → C (idle w) (.env c)) :
    ∃ evs, Run (engine s) C (idle w) evs (idle (w.act s a)) := by
  cases a with
  | trigger environmentID input => exact run_trigger hC w environmentID input (hstart _)
  | triggerAs u environmentID input =>
      exact run_triggerAs hC w u environmentID input (hstart _)
  | handle place =>
      unfold World.act
      dsimp only
      split
      · next t ht => exact run_handle hC w (List.mem_of_getElem? ht) (hstart _)
      · exact ⟨[], .nil _⟩
  | change c => exact ⟨_, Run.single (henv c rfl) (.env rfl)⟩

/-- **Acting one after the other is a run of the engine.** -/
theorem run_acts (hC : ∀ p e, isProgress e → C p e) (hstart : ∀ w l, C (idle w) (.start 0 l))
    (w : World) (as : List Action) (henv : ∀ w c, .change c ∈ as → C (idle w) (.env c)) :
    ∃ evs, Run (engine s) C (idle w) evs (idle (w.acts s as)) := by
  induction as generalizing w with
  | nil => exact ⟨[], .nil _⟩
  | cons a as ih =>
      obtain ⟨evs₁, h₁⟩ := run_act (s := s) hC w a (hstart w) fun c hc => henv w c (by simp [hc])
      obtain ⟨evs₂, h₂⟩ := ih (w.act s a) fun w c hc => henv w c (List.mem_cons_of_mem _ hc)
      exact ⟨evs₁ ++ evs₂, h₁.trans h₂⟩

/-! ### A sample world -/

namespace Sample

/-- The service with a producer, whose templates have no variables. -/
def service : Service where
  producer := true
  render subject body _ := .ok (subject, body)

def environmentID : UUID := .ofDigit 1
def workflowID : UUID := .ofDigit 2
def subscriberID : UUID := .ofDigit 3
def templateID : UUID := .ofDigit 4

/-- The identifier `World.answer` gives to every new execution. -/
def executionID : UUID := .ofDigit 7

def subscriber : Subscriber where
  id := subscriberID
  environmentID := environmentID
  name := "Ada"
  firstName := none
  lastName := none
  email := some "ada@example.com"
  phone := none
  pushToken := none
  channels := ["email"]
  status := some (.obj [("email", .str "subscribed")])
  tags := []
  preferences := none
  metadata := none

def template : Template where
  id := templateID
  environmentID := environmentID
  channel := "email"
  subject := some "Welcome"
  body := "Hi"
  isActive := true

/-- The active workflow of a definition. -/
def workflow (definition : Definition) : Db.Workflow where
  id := workflowID
  environmentID := environmentID
  status := .active
  triggerEvent := trimOptional definition.trigger.event
  definitionJson := some (marshalDefinition definition)

/-- One workflow, one subscriber with an e-mail address, one e-mail template. -/
def world (definition : Definition) : World where
  workflows := [workflow definition]
  executions := .empty _
  steps := .empty _
  subscribers := (Table.empty _).set subscriber
  templates := (Table.empty _).set template
  queue := []
  notifications := []

theorem fresh_world (definition : Definition) : (world definition).Fresh :=
  ⟨fun _ => rfl, fun _ => rfl, rfl, rfl⟩

/-- The event every sample definition is triggered by. -/
def event : TriggerEventInput where
  event := "user.signup"
  subscriberID := subscriberID.toString
  data := none

/-- A node that sends the sample template. -/
def notify (id : String) : Node where
  id := id
  type := .notification
  config := some (.obj [("template_id", .str templateID.toString),
    ("channels", .arr [.str "email"])])

def start (id : String) : Node := ⟨id, .trigger, none⟩

/-- A notification and nothing else. -/
def single : Definition where
  trigger := ⟨"user.signup"⟩
  nodes := [notify "mail"]
  edgeSlice := some []

/-- The job for a step of the execution. -/
def job (stepID : String) : WorkflowStepJob where
  environmentID := environmentID.toString
  executionID := executionID.toString
  workflowID := workflowID.toString
  stepID := stepID

theorem readJob_mail :
    readJob (job "mail") = some ⟨environmentID, executionID, workflowID, "mail"⟩ := rfl

end Sample

end Iwifunni.Workflow
