import HadrAgent.Agent.Caesar
import HadrAgent.Agent.Calc
import HadrAgent.Agent.Sandbox
import HadrAgent.Dispatch.RunTool

/-!
# The toy tools

`run_tool` of `agent.py`: the tools of the standalone agent. `int()`, `ast.parse`, the clock and the die are parameters
(`ToyHost`).

- `toyTool_reads`: of a path that resolves, `read_file` shows a part of a file below the root and `ls` names from a
  directory below the root; no other tool looks at the files. What a tool raises becomes an error of at most 200
  characters.
-/

namespace HadrAgent

variable {F : Type}

/-- What the tools take from the interpreter. -/
structure ToyHost (F : Type) where
  /-- `int(v)`. -/
  int : Val F → Except Exc Int
  /-- `ast.parse(v, mode="eval").body`. -/
  parse : Val F → Except Exc (Node F)
  /-- `random.randint`. -/
  randint : Int → Int → Except Exc Int
  /-- `datetime.now().isoformat(timespec="seconds")`. -/
  now : String
  table : CharTable
  arith : FloatArith F

namespace ToyHost

variable [Runtime F] (host : ToyHost F)

/-- What `_caesar` appends for an item of what it iterates over. -/
def caesarItem (shift : Int) (ch : Val F) : Except Exc String :=
  match ch with
  | .str s =>
    if s ≠ "" ∧ s.toList.all host.table.isalpha then
      match s.toList with
      | [c] => .ok (String.singleton (caesarChar host.table shift c))
      | cs => .error ⟨.typeError, "ord() expected a character, but string of length " ++ toString cs.length ++ " found"⟩
    else .ok s
  | v => .error ⟨.attributeError, "'" ++ v.typeName ++ "' object has no attribute 'isalpha'"⟩

/-- `_caesar` of any value. -/
def caesarOf (text : Val F) (shift : Int) : Except Exc String := do
  let out ← (← text.iter).mapM (host.caesarItem shift)
  return String.join out

/-- `run_tool` inside its `try`. -/
def toyCall (files : Files) (rule : LoopRule) (root : List String) (name : String) (a : Dict F) :
    Except Exc (Dict F) :=
  if name = "roll_dice" then do
    return .ofList [("value", .int (← host.randint 1 (← host.int (a.getD "sides" (.int 6)))))]
  else if name = "now" then .ok (.ofList [("now", .str host.now)])
  else if name = "calc" then do
    let expr ← host.parse (← a.getItem "expression")
    return .ofList [("value", ← calcNode host.arith expr)]
  else if name = "secret_message" then
    let (message, shift) := secretMessage host.table
    .ok (.ofList [("message", .str message), ("shift", .int shift)])
  else if name = "decode" then do
    let text ← a.getItem "text"
    let shift ← host.int (← a.getItem "shift")
    return .ofList [("text", .str (← host.caesarOf text (-shift)))]
  else if name = "ls" then do
    let p ← files.safe rule root (a.getD "path" (.str "."))
    return .ofList [("entries", .list ((← files.lsEntries F p).map .str))]
  else if name = "read_file" then do
    let p ← files.safe rule root (← a.getItem "path")
    return .ofList [("text", .str (String.ofList ((← files.readText F p).toList.take 4000)))]
  else .ok (errorReply ("unknown tool " ++ name))

/-- `run_tool`. -/
def toyTool (files : Files) (rule : LoopRule) (root : List String) (name : String) (a : Dict F) : Dict F :=
  match host.toyCall files rule root name a with
  | .ok reply => reply
  | .error e => errorReply (String.ofList (e.text.toList.take 200))

variable {host} {files : Files} {rule : LoopRule} {root : List String} {name : String} {a : Dict F}

theorem toyTool_of_error {e : Exc} (h : host.toyCall files rule root name a = .error e) :
    ∃ text : String, text.length ≤ 200 ∧ host.toyTool files rule root name a = errorReply text := by
  refine ⟨String.ofList (e.text.toList.take 200), ?_, ?_⟩
  · rw [String.length_ofList]
    exact List.length_take_le ..
  · unfold toyTool
    rw [h]

theorem toyTool_of_ok {reply : Dict F} (h : host.toyCall files rule root name a = .ok reply) :
    host.toyTool files rule root name a = reply := by
  unfold toyTool
  rw [h]

/-- The beginning of a file below the root. -/
def Shows (files : Files) (root : List String) (text : String) : Prop :=
  ∃ place content, root <:+ place ∧ files.get? place = some (.file (.ok content)) ∧
    text = String.ofList (content.toList.take 4000)

/-- Names from a directory below the root, those of directories with a slash. -/
def Lists (files : Files) (root entries : List String) : Prop :=
  entries.Pairwise (· ≤ ·) ∧ entries.length ≤ 50 ∧ ∃ place, root <:+ place ∧ files.get? place = some .dir ∧
    ∀ entry ∈ entries, ∃ name ∈ files.children place,
      entry = name ++ if files.isDirPath (name :: place) then "/" else ""

theorem ls_eq_ok {reply : Dict F} (h : host.toyCall files rule root "ls" a = .ok reply)
    (hpath : ∀ rel, a.getD "path" (.str ".") = .str rel → files.Resolves rule (joined root rel)) :
    ∃ entries, Lists files root entries ∧ reply = .ofList [("entries", .list (entries.map .str))] := by
  obtain ⟨place, hplace, h⟩ := Except.bind_eq_ok.mp h
  obtain ⟨entries, hentries, h⟩ := Except.bind_eq_ok.mp h
  obtain ⟨rel, hrel, -⟩ := Files.safe_eq_ok hplace
  rw [hrel] at hplace
  obtain ⟨hroot, hsettled⟩ := Files.settled_of_safe hplace (hpath rel hrel)
  obtain ⟨hdir, hlen, hsorted, hnames⟩ := Files.lsEntries_eq_ok hsettled hentries
  exact ⟨entries, ⟨hsorted, hlen, place, hroot, hdir, hnames⟩, (Except.ok.inj h).symm⟩

theorem readFile_eq_ok {reply : Dict F} (h : host.toyCall files rule root "read_file" a = .ok reply)
    (hpath : ∀ rel, a.getItem "path" = .ok (.str rel) → files.Resolves rule (joined root rel)) :
    ∃ text, Shows files root text ∧ reply = .ofList [("text", .str text)] := by
  obtain ⟨path, hget, h⟩ := Except.bind_eq_ok.mp h
  obtain ⟨place, hplace, h⟩ := Except.bind_eq_ok.mp h
  obtain ⟨content, hcontent, h⟩ := Except.bind_eq_ok.mp h
  obtain ⟨rel, hrel, -⟩ := Files.safe_eq_ok hplace
  rw [hrel] at hget hplace
  obtain ⟨hroot, hsettled⟩ := Files.settled_of_safe hplace (hpath rel hget)
  exact ⟨_, ⟨place, content, hroot, Files.readText_eq_ok hsettled hcontent, rfl⟩, (Except.ok.inj h).symm⟩

/-- **What the tools read**, on every file system and for every call. Of a path that resolves, `read_file` shows the
beginning of a file below the root, and `ls` shows names from a directory below the root, in order; the other tools
answer the same whatever the files are. A tool that raises answers with an error of at most 200 characters. -/
theorem toyTool_reads (host : ToyHost F) (files : Files) (rule : LoopRule) (root : List String) (a : Dict F) :
    ((∀ rel, a.getItem "path" = .ok (.str rel) → files.Resolves rule (joined root rel)) →
      (∃ text : String, text.length ≤ 200 ∧ host.toyTool files rule root "read_file" a = errorReply text) ∨
        ∃ text, Shows files root text ∧ host.toyTool files rule root "read_file" a = .ofList [("text", .str text)]) ∧
    ((∀ rel, a.getD "path" (.str ".") = .str rel → files.Resolves rule (joined root rel)) →
      (∃ text : String, text.length ≤ 200 ∧ host.toyTool files rule root "ls" a = errorReply text) ∨
        ∃ entries, Lists files root entries ∧
          host.toyTool files rule root "ls" a = .ofList [("entries", .list (entries.map .str))]) ∧
    ∀ name : String, name ≠ "read_file" → name ≠ "ls" → ∀ (files' : Files) (rule' : LoopRule) (root' : List String),
      host.toyTool files' rule' root' name a = host.toyTool files rule root name a := by
  refine ⟨fun hpath => ?_, fun hpath => ?_, fun name hread hls files' rule' root' => ?_⟩
  · cases h : host.toyCall files rule root "read_file" a with
    | error e => exact .inl (toyTool_of_error h)
    | ok reply =>
      rw [toyTool_of_ok h]
      exact .inr (readFile_eq_ok h hpath)
  · cases h : host.toyCall files rule root "ls" a with
    | error e => exact .inl (toyTool_of_error h)
    | ok reply =>
      rw [toyTool_of_ok h]
      exact .inr (ls_eq_ok h hpath)
  · unfold toyTool toyCall
    simp only [if_neg hread, if_neg hls]

/-- A host without a parser, whose die always falls on its lowest number. -/
def deskHost : ToyHost Whole where
  int v := v.int?.elim (.error ⟨.valueError, "invalid literal for int() with base 10"⟩) .ok
  parse _ := .error ⟨.other "SyntaxError", "invalid syntax"⟩
  randint low _ := .ok low
  now := "2026-01-01T12:00:00"
  table := latin1
  arith := ⟨fun _ _ _ => .error (zeroDivision "float division by zero"), fun v => .ok v⟩

theorem toyCall_readFile {path : Val F} {place : List String} {content : String} (hget : a.getItem "path" = .ok path)
    (hsafe : files.safe rule root path = .ok place) (hcontent : files.readText F place = .ok content) :
    host.toyCall files rule root "read_file" a =
      .ok (.ofList [("text", .str (String.ofList (content.toList.take 4000)))]) :=
  Except.bind_eq_ok.mpr ⟨path, hget, Except.bind_eq_ok.mpr ⟨place, hsafe,
    Except.bind_eq_ok.mpr ⟨content, hcontent, rfl⟩⟩⟩

theorem toyCall_ls {place entries : List String} (hsafe : files.safe rule root (a.getD "path" (.str ".")) = .ok place)
    (hentries : files.lsEntries F place = .ok entries) :
    host.toyCall files rule root "ls" a = .ok (.ofList [("entries", .list (entries.map .str))]) :=
  Except.bind_eq_ok.mpr ⟨place, hsafe, Except.bind_eq_ok.mpr ⟨entries, hentries, rfl⟩⟩

/-- Through a link, and the clock. Behind a loop, Python 3.12 reads a file outside the root. -/
theorem toyTool_reads_desk :
    (∃ text, Shows Files.desk ["project"] text ∧ deskHost.toyTool Files.desk .raises ["project"] "read_file"
      (.ofList [("path", .str "home/notes.md")]) = .ofList [("text", .str text)]) ∧
    (∃ entries, Lists Files.desk ["project"] entries ∧ deskHost.toyTool Files.desk .raises ["project"] "ls"
      (.ofList [("path", .str "home")]) = .ofList [("entries", .list (entries.map .str))]) ∧
    deskHost.toyTool Files.desk .goesOn ["etc"] "now" .empty =
      deskHost.toyTool Files.desk .raises ["project"] "now" .empty ∧
    deskHost.toyTool Files.desk .raises ["project"] "read_file" (.ofList [("path", .str "loop/../out/passwd")]) =
      .ofList [("text", .str "root")] := by
  refine ⟨?_, ?_, ?_, ?_⟩
  · have hcall := @toyCall_readFile Whole _ deskHost Files.desk .raises ["project"]
      (.ofList [("path", .str "home/notes.md")]) _ ["notes.md", "project"] "two trucks" rfl (by decide +kernel)
      (by decide +kernel)
    refine ((toyTool_reads deskHost Files.desk .raises ["project"] _).1 ?_).resolve_left ?_
    · intro rel h
      cases h
      decide +kernel
    · rintro ⟨text, -, h⟩
      have htext := congrArg (OrdDict.get? · "text") ((toyTool_of_ok hcall).symm.trans h)
      exact Option.some_ne_none _ htext
  · have hcall := @toyCall_ls Whole _ deskHost Files.desk .raises ["project"]
      (.ofList [("path", .str "home")]) ["project"] ["home/", "loop", "notes.md", "out/"] (by decide +kernel)
      (by decide +kernel)
    refine ((toyTool_reads deskHost Files.desk .raises ["project"] _).2.1 ?_).resolve_left ?_
    · intro rel h
      cases h
      decide +kernel
    · rintro ⟨text, -, h⟩
      have hentries := congrArg (OrdDict.get? · "entries") ((toyTool_of_ok hcall).symm.trans h)
      exact Option.some_ne_none _ hentries
  · exact (toyTool_reads deskHost Files.desk .raises ["project"] .empty).2.2 "now" (by decide) (by decide) Files.desk
      .goesOn ["etc"]
  · have hcall := @toyCall_readFile Whole _ deskHost Files.desk .raises ["project"]
      (.ofList [("path", .str "loop/../out/passwd")]) _ ["passwd", "out", "project"] "root" rfl (by decide +kernel)
      (by decide +kernel)
    exact toyTool_of_ok hcall

end ToyHost

end HadrAgent
