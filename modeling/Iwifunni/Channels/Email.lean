/-
Iwifunni/Channels/Email.lean

`SendEmail` and `mailer.send` (`channels/email.go`): a message for `smtp.SendMail`, put
together from the values of a notification.

    From: ..  To: ..  Subject: ..      one line each
                                       an empty line
    ..                                 the message, and the metadata if there is any

The values are written as they are.  A line break in one of them ends its line, so that the
message reads back as it is meant exactly if the values in the header have none
(`readsBack_iff`).
-/
import Iwifunni.Go.Lines

namespace Iwifunni.Channels

open Go

/-! ### The channel -/

structure EmailConfig where
  host : String
  port : ℤ
  username : String
  password : String
  from_ : String

/-- The arguments of `smtp.SendMail`; `PlainAuth` has the username, the password and the
host. -/
structure SendMail where
  addr : String
  auth : String × String × String
  from_ : String
  recipients : List String
  msg : String

/-- The message of `mailer.send`. -/
def mailerMessage (from_ recipient subject body : String) : String :=
  "From: " ++ from_ ++ "\r\nTo: " ++ recipient ++ "\r\nSubject: " ++ subject ++ "\r\n\r\n" ++ body

/-- `mailer.send`. -/
def mailerSend (m : EmailConfig) (recipient subject body : String) : SendMail where
  addr := m.host ++ ":" ++ toString m.port
  auth := (m.username, m.password, m.host)
  from_ := m.from_
  recipients := [recipient]
  msg := mailerMessage m.from_ recipient subject body

/-- The body of a message; the metadata come in any order. -/
def emailBody (message : String) (metadata : List (String × String)) : String :=
  if metadata = [] then message
  else metadata.foldl (fun body f => body ++ f.1 ++ ": " ++ f.2 ++ "\n")
    (message ++ "\n\nMetadata:\n")

/-- `SendEmail`. -/
def sendEmail (cfg : EmailConfig) (recipient title message : String)
    (metadata : List (String × String)) : Except String SendMail :=
  if recipient = "" then .error "email recipient is required"
  else if cfg.host = "" ∨ cfg.port = 0 ∨ cfg.username = "" ∨ cfg.password = "" ∨
      cfg.from_ = "" then
    .error "email channel config is incomplete"
  else .ok (mailerSend cfg recipient title (emailBody message metadata))

/-! ### Reading a message back -/

/-- The message has the three fields and no others, and its body starts with the message. -/
def ReadsBack (lenient : Bool) (from_ recipient subject message msg : String) : Prop :=
  ∃ lines body, Reads lenient msg.toList lines body ∧
    lines.map splitField = [some ("From".toList, from_.toList), some ("To".toList, recipient.toList),
      some ("Subject".toList, subject.toList)] ∧
    message.toList <+: body

section Message

variable {lenient : Bool} {from_ recipient subject body message : String}

/-- The body starts with the message. -/
theorem prefix_emailBody (message : String) (metadata : List (String × String)) :
    message.toList <+: (emailBody message metadata).toList := by
  have hfold : ∀ (metadata : List (String × String)) (start : String),
      message.toList <+: start.toList → message.toList <+:
        (metadata.foldl (fun body f => body ++ f.1 ++ ": " ++ f.2 ++ "\n") start).toList := by
    intro metadata
    induction metadata with
    | nil => exact fun _ h => h
    | cons f rest ih =>
        intro start h
        apply ih
        simp only [String.toList_append, List.append_assoc]
        exact h.trans (List.prefix_append ..)
  unfold emailBody
  split
  · exact List.prefix_rfl
  · apply hfold
    rw [String.toList_append]
    exact List.prefix_append ..

/-- A field whose value has no line break is read as one line. -/
theorem reads_field {name value rest body : List Char} {lines : List (List Char)}
    (hcr : '\r' ∉ name) (hlf : '\n' ∉ name) (h : Clean lenient value)
    (hrest : Reads lenient rest lines body) :
    Reads lenient (name ++ ':' :: ' ' :: value ++ '\r' :: '\n' :: rest)
      ((name ++ ':' :: ' ' :: value) :: lines) body := by
  refine .line (breakLine_append ?_ rest) (by simp) hrest
  rw [List.append_cons, List.append_cons]
  refine clean_append (clean_of_notMem ?_ ?_) h (by simp)
  · simpa using hcr
  · simpa using hlf

/-- The message, with its line breaks. -/
theorem toList_mailerMessage (from_ recipient subject body : String) :
    (mailerMessage from_ recipient subject body).toList =
      "From".toList ++ ':' :: ' ' :: from_.toList ++ '\r' :: '\n' ::
        ("To".toList ++ ':' :: ' ' :: recipient.toList ++ '\r' :: '\n' ::
          ("Subject".toList ++ ':' :: ' ' :: subject.toList ++ '\r' :: '\n' ::
            ([] ++ '\r' :: '\n' :: body.toList))) := by
  simp [mailerMessage, String.toList_append]

/-- **A message reads back as it is meant exactly if no value in its header has a line
break.** -/
theorem readsBack_mailerMessage_iff (hbody : message.toList <+: body.toList) :
    ReadsBack lenient from_ recipient subject message
        (mailerMessage from_ recipient subject body) ↔
      Clean lenient from_.toList ∧ Clean lenient recipient.toList ∧
        Clean lenient subject.toList := by
  constructor
  · rintro ⟨lines, body', hreads, hfields, -⟩
    have hclean := hreads.clean
    have hfield : ∀ name value, some (name, value) ∈ lines.map splitField →
        Clean lenient value := by
      intro name value hmem
      obtain ⟨line, hline, he⟩ := List.mem_map.mp hmem
      have hline' := hclean line hline
      rw [eq_of_splitField he, List.append_cons, List.append_cons] at hline'
      exact hline'.append_right
    rw [hfields] at hfield
    exact ⟨hfield "From".toList _ (by simp), hfield "To".toList _ (by simp),
      hfield "Subject".toList _ (by simp)⟩
  · rintro ⟨hfrom, hto, hsubject⟩
    have hreads : Reads lenient (mailerMessage from_ recipient subject body).toList
        ["From".toList ++ ':' :: ' ' :: from_.toList, "To".toList ++ ':' :: ' ' :: recipient.toList,
          "Subject".toList ++ ':' :: ' ' :: subject.toList] body.toList := by
      rw [toList_mailerMessage]
      apply reads_field (by decide) (by decide) hfrom
      apply reads_field (by decide) (by decide) hto
      apply reads_field (by decide) (by decide) hsubject
      exact .empty (breakLine_append (clean_of_notMem (by simp) (by simp)) _)
    refine ⟨_, body.toList, hreads, ?_, hbody⟩
    rw [List.map_cons, List.map_cons, List.map_singleton, splitField_append (by decide),
      splitField_append (by decide), splitField_append (by decide)]

/-- **What `SendEmail` hands to `smtp.SendMail` reads back as it is meant exactly if no
value in its header has a line break.** -/
theorem readsBack_iff {cfg : EmailConfig} {recipient title message : String}
    {metadata : List (String × String)} {call : SendMail} (lenient : Bool)
    (h : sendEmail cfg recipient title message metadata = .ok call) :
    ReadsBack lenient cfg.from_ recipient title message call.msg ↔
      Clean lenient cfg.from_.toList ∧ Clean lenient recipient.toList ∧
        Clean lenient title.toList := by
  unfold sendEmail at h
  split at h
  · cases h
  · split at h
    · cases h
    · cases h
      exact readsBack_mailerMessage_iff (prefix_emailBody message metadata)

end Message

/-! ### A subject with two lines -/

namespace Sample

def config : EmailConfig where
  host := "smtp.example.com"
  port := 587
  username := "team"
  password := "secret"
  from_ := "team@example.com"

/-- The subject of a template, with a value that has a line break in it. -/
def subject : String := "Order for Hi\r\nBcc: eve@example.com"

end Sample

theorem readsBack_iff_order :
    ReadsBack true Sample.config.from_ "ada@example.com" "Your order" "Thanks"
        (mailerSend Sample.config "ada@example.com" "Your order"
          (emailBody "Thanks" [("order", "7")])).msg ↔
      Clean true Sample.config.from_.toList ∧ Clean true "ada@example.com".toList ∧
        Clean true "Your order".toList :=
  readsBack_iff true (show sendEmail Sample.config "ada@example.com" "Your order" "Thanks"
    [("order", "7")] = .ok _ from rfl)

/-- The text of that mail has a fourth field, whichever line breaks are read. -/
theorem reads_fourFields (lenient : Bool) :
    ∃ lines, Reads lenient
        (mailerMessage Sample.config.from_ "ada@example.com" Sample.subject "Hello").toList lines
        "Hello".toList ∧
      lines.map splitField = [some ("From".toList, "team@example.com".toList),
        some ("To".toList, "ada@example.com".toList),
        some ("Subject".toList, "Order for Hi".toList),
        some ("Bcc".toList, "eve@example.com".toList)] := by
  have hclean : ∀ {text : String}, text.toList.all (fun c => c != '\r' && c != '\n') = true →
      Clean lenient text.toList := by
    intro text h
    rw [List.all_eq_true] at h
    exact clean_of_notMem (fun hmem => absurd (h _ hmem) (by decide))
      fun hmem => absurd (h _ hmem) (by decide)
  have hmsg : (mailerMessage Sample.config.from_ "ada@example.com" Sample.subject "Hello").toList =
      "From".toList ++ ':' :: ' ' :: "team@example.com".toList ++ '\r' :: '\n' ::
        ("To".toList ++ ':' :: ' ' :: "ada@example.com".toList ++ '\r' :: '\n' ::
          ("Subject".toList ++ ':' :: ' ' :: "Order for Hi".toList ++ '\r' :: '\n' ::
            ("Bcc".toList ++ ':' :: ' ' :: "eve@example.com".toList ++ '\r' :: '\n' ::
              ([] ++ '\r' :: '\n' :: "Hello".toList)))) := by decide +kernel
  refine ⟨["From".toList ++ ':' :: ' ' :: "team@example.com".toList,
    "To".toList ++ ':' :: ' ' :: "ada@example.com".toList,
    "Subject".toList ++ ':' :: ' ' :: "Order for Hi".toList,
    "Bcc".toList ++ ':' :: ' ' :: "eve@example.com".toList], ?_, by decide +kernel⟩
  rw [hmsg]
  apply reads_field (by decide) (by decide) (hclean (by decide +kernel))
  apply reads_field (by decide) (by decide) (hclean (by decide +kernel))
  apply reads_field (by decide) (by decide) (hclean (by decide +kernel))
  apply reads_field (by decide) (by decide) (hclean (by decide +kernel))
  exact .empty (breakLine_append (clean_of_notMem (by simp) (by simp)) _)

theorem not_readsBack_fourFields (lenient : Bool) :
    ¬ ReadsBack lenient Sample.config.from_ "ada@example.com" Sample.subject "Hello"
      (mailerMessage Sample.config.from_ "ada@example.com" Sample.subject "Hello") := by
  rw [readsBack_mailerMessage_iff List.prefix_rfl]
  rintro ⟨-, -, hsubject⟩
  have hbreak := hsubject "Order for Hi".toList "\r\nBcc: eve@example.com".toList
    (by decide +kernel)
  cases lenient <;> exact absurd hbreak (by decide +kernel)

/-- The mail goes out with a fourth field, and is read back by no reader. -/
theorem fourFields_order : ∃ call,
    sendEmail Sample.config "ada@example.com" Sample.subject "Hello" [] = .ok call ∧
    (∃ lines, Reads true call.msg.toList lines "Hello".toList ∧
      lines.map splitField = [some ("From".toList, "team@example.com".toList),
        some ("To".toList, "ada@example.com".toList),
        some ("Subject".toList, "Order for Hi".toList),
        some ("Bcc".toList, "eve@example.com".toList)]) ∧
    ¬ ReadsBack true Sample.config.from_ "ada@example.com" Sample.subject "Hello" call.msg ∧
    ¬ ReadsBack false Sample.config.from_ "ada@example.com" Sample.subject "Hello" call.msg :=
  ⟨mailerSend Sample.config "ada@example.com" Sample.subject "Hello", rfl, reads_fourFields true,
    not_readsBack_fourFields true, not_readsBack_fourFields false⟩

end Iwifunni.Channels
