import HadrAgent.Agent.Usage
import HadrAgent.Intake.Parse
import HadrAgent.Runner.Episode

/-!
# Intake

`extract_report` of `intake.py`: a contact goes to the model, and its answer, parsed, comes back as the report. The
model (`create`) and `json.loads` are parameters.

- `parse_isDict_iff`: what is parsed is an object unless the whole answer is JSON of another kind;
- `extractReport_eq_ok`: a report is the parse of an answer;
- `report_isDict_iff`: so it is an object exactly then.
-/

namespace HadrAgent

variable {F : Type}

/-- A request to the model. -/
structure ChatRequest where
  model : String
  /-- The role and the content of each message. -/
  messages : List (String × String)
  responseFormat : String
  maxTokens : Nat
  temperature : Nat

/-- Its answer: the content of each choice, and the usage. -/
structure ChatCompletion where
  choices : List (Option String)
  usage : Usage

namespace Intake

section Model

variable [Runtime F]

/-- `MAX_TOKENS`. -/
def maxTokens : Nat := 1400

/-- `_finalize`, as it ships. -/
def finalize (_fields _contact : Val F) : Except Exc (Val F) :=
  .error ⟨.other "NotImplementedError", "stage 1/2: enforce the report schema and envelope authority"⟩

/-- `_project_claim`. -/
def projectClaim (contact : Val F) : Except Exc (Val F) := do
  let claim ← (← contact.getItem "payload").getItem "claim"
  let fields : Val F := .dict [
    ("incident_type", ← claim.getD "incident_type" .none),
    ("severity", ← claim.getD "severity" .none),
    ("headcount", ← claim.getD "headcount" .none),
    ("event_time", ← claim.getD "event_time" .none)]
  finalize fields contact

/-- The message of the user. -/
def userMessage (contact text : Val F) : Except Exc String := do
  let sourceType ← contact.getD "source_type" (.str "")
  let occurredAt ← contact.getD "occurred_at" (.int 0)
  return "source_type: " ++ sourceType.toStr ++ "\noccurred_at: " ++ occurredAt.toStr ++ "\ncontact text:\n" ++
    text.toStr ++ "\n\nEmit the report JSON now."

/-- What is asked of the model about a contact. -/
def chatRequest (environ : String → Option String) (prompt : String → Except Exc String) (contact text : Val F) :
    Except Exc ChatRequest := do
  return {
    model := (environ "INTAKE_MODEL").getD "mimo-v2.5"
    messages := [("system", ← prompt "intake_system.md"), ("user", ← userMessage contact text)]
    responseFormat := "json_object"
    maxTokens := maxTokens
    temperature := 0 }

/-- `resp.choices[0].message.content`. -/
def firstContent (resp : ChatCompletion) : Except Exc (Option String) :=
  resp.choices.head?.elim (.error ⟨.other "IndexError", "list index out of range"⟩) .ok

/-- The model path of `extract_report`. -/
def askModel (loads : String → Except Exc (Val F)) (create : LlmClient → ChatRequest → Except Exc ChatCompletion)
    (environ : String → Option String) (prompt : String → Except Exc String) (contact : Val F)
    (client : Option LlmClient) : Except Exc (Val F × TokenUse) := do
  let text ← (← contact.getItem "payload").getD "text" (.str "")
  let client ← client.elim (llmClient environ "INTAKE_") .ok
  let request ← chatRequest environ prompt contact text
  let resp ← create client request
  let fields ← parse loads (← firstContent resp)
  return (fields, TokenUse.zero.absorb resp.usage)

/-- `extract_report`. -/
def extractReport (loads : String → Except Exc (Val F)) (create : LlmClient → ChatRequest → Except Exc ChatCompletion)
    (environ : String → Option String) (prompt : String → Except Exc String) (contact : Val F)
    (client : Option LlmClient) : Except Exc (Val F × TokenUse) := do
  let ptype ← contact.getD "payload_type" .none
  if ptype.eq (.str "structured_report") then return (← projectClaim contact, .zero)
  else if ptype.eq (.str "human_text") then askModel loads create environ prompt contact client
  else throw ⟨.valueError, "intake handles human contacts only, got " ++ ptype.repr⟩

end Model

/-! ## Parsing gives an object -/

/-- The answer is empty, or no JSON as a whole, or begins as an object does. -/
def YieldsObject (loads : String → Except Exc (Val F)) (content : Option String) : Prop :=
  ∀ text, content = some text → text = "" ∨ Rejects loads text ∨ Json.firstChar text = some '{'

variable [Runtime F] {loads : String → Except Exc (Val F)}

/-- A slice in braces that is accepted is an object. -/
theorem isDict_of_isBraced (hloads : JsonLoads loads) {o : String} {v : Val F} (ho : IsBraced o)
    (hv : loads o = .ok v) : v.isDict = true := by
  refine (Json.Text.isDict_iff (hloads.denotes hv)).mpr ?_
  obtain ⟨m, hm⟩ := isBraced_iff.mp ho
  unfold Json.firstChar
  rw [hm]
  rfl

/-- What is left of a rejected answer gives an object. -/
theorem parse_isDict_of_rejects (hloads : JsonLoads loads) {text : String} (hne : text ≠ "")
    (h : Rejects loads text) : ∃ v, parse loads (some text) = .ok v ∧ v.isDict = true := by
  rw [parse_of_rejects hne h]
  cases hs : salvage text with
  | none => exact ⟨unknownReport, rfl, rfl⟩
  | some o =>
    obtain ⟨p, s, -, -, -, hbraced⟩ := salvage_eq_some_iff.mp hs
    cases ho : loads o with
    | ok v => exact ⟨v, tryLoads_of_ok ho _, isDict_of_isBraced hloads hbraced ho⟩
    | error e => exact ⟨unknownReport, tryLoads_of_rejects ⟨e, ho, hloads.raises ho⟩ _, rfl⟩

/-- Parsing returns, and gives an object exactly for the answers that yield one. -/
theorem parse_isDict_iff (hloads : JsonLoads loads) (content : Option String) :
    ∃ v, parse loads content = .ok v ∧ (v.isDict = true ↔ YieldsObject loads content) := by
  cases content with
  | none =>
    refine ⟨unknownReport, rfl, iff_of_true rfl ?_⟩
    intro text e
    cases e
  | some text =>
    have hyields : YieldsObject loads (some text) ↔
        text = "" ∨ Rejects loads text ∨ Json.firstChar text = some '{' := by
      unfold YieldsObject
      simp
    rw [hyields]
    by_cases hne : text = ""
    · refine ⟨unknownReport, ?_, iff_of_true rfl (.inl hne)⟩
      unfold parse
      exact if_pos hne
    · cases htext : loads text with
      | ok v =>
        have hno : ¬ Rejects loads text := by
          rintro ⟨e, he, -⟩
          rw [htext] at he
          cases he
        refine ⟨v, parse_of_ok hne htext, ?_⟩
        rw [Json.Text.isDict_iff (hloads.denotes htext)]
        constructor
        · exact fun h => .inr (.inr h)
        · rintro (h | h | h)
          · exact absurd h hne
          · exact absurd h hno
          · exact h
      | error e =>
        have hrejects : Rejects loads text := ⟨e, htext, hloads.raises htext⟩
        obtain ⟨v, hv, hdict⟩ := parse_isDict_of_rejects hloads hne hrejects
        exact ⟨v, hv, iff_of_true hdict (.inr (.inl hrejects))⟩

/-! ## Reports -/

/-- **A report is the parse of an answer**, and its usage that of the answer. -/
theorem extractReport_eq_ok {create : LlmClient → ChatRequest → Except Exc ChatCompletion}
    {environ : String → Option String} {prompt : String → Except Exc String} {contact report : Val F}
    {client : Option LlmClient} {usage : TokenUse}
    (h : extractReport loads create environ prompt contact client = .ok (report, usage)) :
    ∃ llm request resp content, create llm request = .ok resp ∧ resp.choices.head? = some content ∧
      parse loads content = .ok report ∧ usage = TokenUse.zero.absorb resp.usage := by
  obtain ⟨ptype, _, h⟩ := Except.bind_eq_ok.mp h
  split at h
  · -- a structured claim reaches `_finalize`, which ships as a hole
    obtain ⟨r, hr, -⟩ := Except.bind_eq_ok.mp h
    obtain ⟨payload, _, hr⟩ := Except.bind_eq_ok.mp hr
    obtain ⟨claim, _, hr⟩ := Except.bind_eq_ok.mp hr
    obtain ⟨incidentType, _, hr⟩ := Except.bind_eq_ok.mp hr
    obtain ⟨severity, _, hr⟩ := Except.bind_eq_ok.mp hr
    obtain ⟨headcount, _, hr⟩ := Except.bind_eq_ok.mp hr
    obtain ⟨eventTime, _, hr⟩ := Except.bind_eq_ok.mp hr
    cases hr
  · split at h
    · obtain ⟨payload, _, h⟩ := Except.bind_eq_ok.mp h
      obtain ⟨text, _, h⟩ := Except.bind_eq_ok.mp h
      obtain ⟨llm, _, h⟩ := Except.bind_eq_ok.mp h
      obtain ⟨request, _, h⟩ := Except.bind_eq_ok.mp h
      obtain ⟨resp, hresp, h⟩ := Except.bind_eq_ok.mp h
      obtain ⟨content, hcontent, h⟩ := Except.bind_eq_ok.mp h
      obtain ⟨fields, hfields, h⟩ := Except.bind_eq_ok.mp h
      cases h
      refine ⟨llm, request, resp, content, hresp, ?_, hfields, rfl⟩
      unfold firstContent at hcontent
      cases hhead : resp.choices.head? with
      | none =>
        rw [hhead] at hcontent
        cases hcontent
      | some c =>
        rw [hhead] at hcontent
        cases hcontent
        rfl
    · cases h

/-- **Parsing** always returns, and returns an object exactly if the answer is empty, is no JSON as a whole, or begins
as an object does; and a report is the parse of an answer, so it is an object exactly then. -/
theorem report_isDict_iff (hloads : JsonLoads loads) :
    (∀ content : Option String,
      ∃ v, parse loads content = .ok v ∧ ((∃ items, v = .dict items) ↔ YieldsObject loads content)) ∧
    ∀ (create : LlmClient → ChatRequest → Except Exc ChatCompletion) (environ : String → Option String)
      (prompt : String → Except Exc String) (contact report : Val F) (client : Option LlmClient) (usage : TokenUse),
      extractReport loads create environ prompt contact client = .ok (report, usage) →
        ∃ llm request resp content, create llm request = .ok resp ∧ resp.choices.head? = some content ∧
          ((∃ items, report = .dict items) ↔ YieldsObject loads content) := by
  constructor
  · intro content
    obtain ⟨v, hv, hdict⟩ := parse_isDict_iff hloads content
    exact ⟨v, hv, v.isDict_iff.symm.trans hdict⟩
  · intro create environ prompt contact report client usage h
    obtain ⟨llm, request, resp, content, hresp, hcontent, hparse, -⟩ := extractReport_eq_ok h
    obtain ⟨v, hv, hdict⟩ := parse_isDict_iff hloads content
    obtain rfl := Except.ok.inj (hv.symm.trans hparse)
    exact ⟨llm, request, resp, content, hresp, hcontent, v.isDict_iff.symm.trans hdict⟩

/-! ## A list for a report -/

/-- A reader of two texts. -/
def bareLoads (s : String) : Except Exc (Val Whole) :=
  if s = "[]" then .ok (.list [])
  else if s = "\x7b\x7d" then .ok (.dict [])
  else .error ⟨jsonDecodeError, "Expecting value: line 1 column 1 (char 0)"⟩

theorem jsonLoads_bareLoads : JsonLoads bareLoads where
  denotes := by
    intro s v h
    have hnil : Json.IsWs [] := fun _ hc => absurd hc List.not_mem_nil
    unfold bareLoads at h
    split at h
    · next hs =>
      cases h
      subst hs
      exact .mk hnil (.emptyList hnil) hnil
    · split at h
      · next hs =>
        cases h
        subst hs
        exact .mk hnil (.emptyDict hnil) hnil
      · cases h
  raises := by
    intro s e h
    unfold bareLoads at h
    split at h
    · cases h
    · split at h
      · cases h
      · cases h
        rfl

/-- The model writes an empty list, and that is the report. -/
theorem parse_list : JsonLoads bareLoads ∧ ¬ ∃ items, parse bareLoads (some "[]") = .ok (.dict items) := by
  refine ⟨jsonLoads_bareLoads, ?_⟩
  rintro ⟨items, h⟩
  have hlist : parse bareLoads (some "[]") = .ok (.list []) := parse_of_ok (by decide) rfl
  rw [hlist] at h
  cases h

/-- Prose around an object yields the object. -/
theorem report_isDict_prose : ∃ items, parse bareLoads (some "Report: \x7b\x7d") = .ok (.dict items) := by
  obtain ⟨v, hv, hdict⟩ := (report_isDict_iff jsonLoads_bareLoads).1 (some "Report: \x7b\x7d")
  have hyields : YieldsObject bareLoads (some "Report: \x7b\x7d") := by
    intro text e
    cases e
    exact .inr (.inl ⟨_, rfl, rfl⟩)
  obtain ⟨items, rfl⟩ := hdict.mpr hyields
  exact ⟨items, hv⟩

end Intake

end HadrAgent
