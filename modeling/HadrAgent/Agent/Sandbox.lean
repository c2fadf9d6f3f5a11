import HadrAgent.Lib.FileTree
import HadrAgent.Python.Value

/-!
# The sandbox of the toy tools

`_safe` of `agent.py` and the two tools behind it, `ls` and `read_file`, on a file system with symbolic links
(`FileTree`). The root is a place in it, and so is a path that `Path.resolve` gave. What `Path.resolve` does at a loop
of links is not the same in every version of Python (`LoopRule`).

- `safe_confines`: a path that `_safe` returns is below the root, and whoever opens it gets to that place, unless
  resolving it met a loop and left the rest as text. The kernel then follows links in that rest which nothing has
  looked at, so that what is opened need not be below the root.
- `lsEntries_eq_ok`, `readText_eq_ok`: what the tools show of a settled path is in the directory, or the file, at its
  place.
-/

namespace HadrAgent

variable {F : Type}

/-- The file system. A file holds what reading it as text gives. -/
abbrev Files := FileTree String (Except Exc String)

/-! ## Paths -/

/-- A component of the text of a path. -/
def pathPart (s : String) : PathPart String :=
  if s = "" then .here false else if s = "." then .here true else if s = ".." then .up else .name s

def partText : PathPart String → String
  | .here dot => if dot then "." else ""
  | .up => ".."
  | .name x => x

/-- `text.split("/")`. -/
def splitPath (text : String) : List (PathPart String) :=
  (text.toList.splitOn '/').map fun l => pathPart (String.ofList l)

/-- The parts of `Path(text)`. -/
def pathParts (text : String) : List (PathPart String) :=
  (splitPath text).filter fun p => p ≠ .here false ∧ p ≠ .here true

/-- `Path(text).is_absolute()`. -/
def isAbsolute (text : String) : Bool := text.toList.head? = some '/'

/-- The parts of the path of a place. -/
def placeParts (place : List String) : List (PathPart String) := place.reverse.map .name

/-- `str(path)` of a place. -/
def placeText (place : List String) : String := "/" ++ "/".intercalate place.reverse

/-- `root / rel`. -/
def joined (root : List String) (rel : String) : List (PathPart String) :=
  if isAbsolute rel then pathParts rel else placeParts root ++ pathParts rel

/-- `os.path.join`. -/
def joinPath (a b : String) : String :=
  if isAbsolute b then b else if a = "" ∨ a.toList.getLast? = some '/' then a ++ b else a ++ "/" ++ b

/-- An absolute path without dots: its names, the innermost first. Two slashes in front stay two. -/
structure AbsPath where
  doubled : Bool
  place : List String
deriving DecidableEq

def AbsPath.text (p : AbsPath) : String := (if p.doubled then "/" else "") ++ placeText p.place

/-- `os.path.normpath` of an absolute path. -/
def normpath (text : String) : AbsPath where
  doubled := text.toList.take 2 = ['/', '/'] ∧ text.toList[2]? ≠ some '/'
  place := PathPart.asText [] (splitPath text)

/-- What is left of the target of each link, and of the path itself, when a resolution stops. -/
def restParts : List (FileTree.Pending String) → List (List (PathPart String))
  | [] => [[]]
  | .part p :: rest => (restParts rest).modifyHead (p :: ·)
  | .resolved _ :: rest => [] :: restParts rest

/-- What `Path.resolve` does at a loop of links. -/
inductive LoopRule where
  /-- Python 3.12: what is left is joined to the link as text, and what then has too many links to be opened raises. -/
  | raises
  /-- What is left is text, and nothing raises. -/
  | stops
  /-- The link stays in the path, and what is left is resolved. -/
  | goesOn
deriving DecidableEq

/-- The path that a resolution gives. -/
def LoopRule.finish : LoopRule → FileTree.Resolution String → AbsPath
  | _, .place loc => ⟨false, loc⟩
  -- joined for each link whose target was being resolved, from the innermost on, and then for the path itself
  | .raises, .loop link rest => normpath
      ((restParts rest).foldl (fun path ps => joinPath path ("/".intercalate (ps.map partText))) (placeText link))
  | _, .loop link rest => ⟨false, PathPart.asText link (FileTree.parts rest)⟩

/-- The components of a path that its resolution looks up. -/
def lookedUp (ps : List (PathPart String)) : FileTree.Resolution String → List (PathPart String)
  | .place _ => ps
  -- the last of what is left is what is left of the path itself
  | .loop _ rest => ps.take (ps.length - ((restParts rest).getLast?.getD []).length)

/-- No name holds a null character. -/
def nulFree (ps : List (PathPart String)) : Bool := ps.all fun p => Char.ofNat 0 ∉ (partText p).toList

/-- What a path with a null character raises. -/
def nulError : Exc := ⟨.valueError, "embedded null byte"⟩

namespace Files

variable (files : Files)

/-! ## Opening -/

/-- The links the kernel follows in one path. -/
def maxLinks : Nat := 40

/-- `OSError`. -/
def osError (F : Type) [Runtime F] (errno : Nat) (strerror : String) (place : List String) : Exc :=
  ⟨.osError, "[Errno " ++ toString errno ++ "] " ++ strerror ++ ": " ++ Val.reprStr F (placeText place)⟩

section Tools

variable [Runtime F]

/-- Why the kernel did not find a place. -/
def lookupError (F : Type) [Runtime F] (place : List String) : FileTree.LookupError → Exc
  | .missing => osError F 2 "No such file or directory" place
  | .notDir => osError F 20 "Not a directory" place
  | .loop => osError F 40 "Too many levels of symbolic links" place

/-- Where the kernel gets to when it opens a path. -/
def openPath (F : Type) [Runtime F] (place : List String) : Except Exc (List String) :=
  if nulFree (placeParts place) then (files.lookup maxLinks [] (placeParts place)).mapError (lookupError F place)
  else .error nulError

/-- `Path.iterdir`. -/
def iterdir (F : Type) [Runtime F] (place : List String) : Except Exc (List String) := do
  let loc ← files.openPath F place
  if files.isDir loc then return files.children loc
  else throw (osError F 20 "Not a directory" place)

/-- `Path.is_dir`. -/
def isDirPath (place : List String) : Bool :=
  match files.lookup maxLinks [] (placeParts place) with
  | .ok loc => files.isDir loc
  | .error _ => false

/-- `Path.read_text`. -/
def readText (F : Type) [Runtime F] (place : List String) : Except Exc String := do
  let loc ← files.openPath F place
  match files.get? loc with
  | some (.file content) => content
  | some .dir => throw (osError F 21 "Is a directory" place)
  | _ => throw (osError F 2 "No such file or directory" place)

/-- The entries that `ls` shows. -/
def lsEntries (F : Type) [Runtime F] (place : List String) : Except Exc (List String) := do
  let names ← files.iterdir F place
  return ((names.map fun name => name ++ if files.isDirPath (name :: place) then "/" else "").insertionSort
    (· ≤ ·)).take 50

/-! ## Resolving -/

/-- `Path.stat` in `Path.resolve`, for what it raises. -/
def checkLoop (F : Type) [Runtime F] (p : AbsPath) : Except Exc Unit :=
  if ¬ nulFree (placeParts p.place) then .error nulError
  else if files.lookup maxLinks [] (placeParts p.place) = .error .loop then
    .error ⟨.other "RuntimeError", "Symlink loop from " ++ Val.reprStr F p.text⟩
  else .ok ()

/-- `Path.resolve`. -/
def resolvePath (F : Type) [Runtime F] (rule : LoopRule) (ps : List (PathPart String)) : Except Exc AbsPath :=
  let resolution := files.resolve (decide (rule = .goesOn)) ps
  let p := rule.finish resolution
  if ¬ nulFree (lookedUp ps resolution) then .error nulError
  else if rule = .raises then do
    files.checkLoop F p
    return p
  else .ok p

/-- What `_safe` raises. -/
def escapes : Exc := ⟨.valueError, "path escapes the project"⟩

/-- `_safe`. -/
def safe (rule : LoopRule) (root : List String) (rel : Val F) : Except Exc (List String) :=
  match rel with
  | .str rel => do
    let p ← files.resolvePath F rule (joined root rel)
    if p.doubled = false ∧ root <:+ p.place then return p.place else throw escapes
  | v => .error ⟨.typeError, "unsupported operand type(s) for /: 'PosixPath' and '" ++ v.typeName ++ "'"⟩

end Tools

/-- Resolving the path meets a loop. -/
def meetsLoop (ps : List (PathPart String)) : Bool :=
  match files.resolve false ps with
  | .place _ => false
  | .loop _ _ => true

/-- Resolving the path meets no loop, or goes on there. -/
def Resolves (rule : LoopRule) (ps : List (PathPart String)) : Prop := rule = .goesOn ∨ files.meetsLoop ps = false

instance (rule : LoopRule) (ps : List (PathPart String)) : Decidable (files.Resolves rule ps) :=
  inferInstanceAs (Decidable (_ ∨ _))

/-! ## Confinement -/

variable {files} {rule : LoopRule} {root : List String}

/-- A path that resolves gives a place without links that can be followed. -/
theorem Resolves.settled {ps : List (PathPart String)} (h : files.Resolves rule ps) :
    ∃ loc, files.resolve (decide (rule = .goesOn)) ps = .place loc ∧
      files.Settled (decide (rule = .goesOn)) loc := by
  have hplace : ∃ loc, files.resolve (decide (rule = .goesOn)) ps = .place loc := by
    by_cases hrule : rule = .goesOn
    · rw [decide_eq_true hrule]
      exact FileTree.realpath_goOn _ _ _
    · have hloop := h.resolve_left hrule
      unfold meetsLoop at hloop
      rw [decide_eq_false hrule]
      split at hloop
      · next loc hloc => exact ⟨loc, hloc⟩
      · cases hloop
  obtain ⟨loc, hloc⟩ := hplace
  exact ⟨loc, hloc, FileTree.settled_resolve hloc⟩

theorem finish_place (loc : List String) : rule.finish (.place loc) = ⟨false, loc⟩ := by
  cases rule <;> rfl

section Safe

variable [Runtime F]

/-- A path that resolved is the one its resolution gives. -/
theorem resolvePath_eq_ok {ps : List (PathPart String)} {p : AbsPath} (h : files.resolvePath F rule ps = .ok p) :
    p = rule.finish (files.resolve (decide (rule = .goesOn)) ps) := by
  simp only [resolvePath] at h
  split at h
  · cases h
  · split at h
    · obtain ⟨_, -, h⟩ := Except.bind_eq_ok.mp h
      exact (Except.ok.inj h).symm
    · exact (Except.ok.inj h).symm

/-- What `_safe` returns resolved, to a place below the root. -/
theorem safe_eq_ok {rel : Val F} {p : List String} (h : files.safe rule root rel = .ok p) :
    ∃ text, rel = .str text ∧ root <:+ p ∧
      rule.finish (files.resolve (decide (rule = .goesOn)) (joined root text)) = ⟨false, p⟩ := by
  unfold safe at h
  split at h
  · next text =>
    obtain ⟨p', hp', h⟩ := Except.bind_eq_ok.mp h
    split at h
    · next hroot =>
      cases h
      refine ⟨text, rfl, hroot.2, ?_⟩
      rw [← resolvePath_eq_ok hp', ← hroot.1]
    · cases h
  · cases h

/-- What `_safe` returns of a path that resolves is below the root and settled. -/
theorem settled_of_safe {rel : String} {p : List String} (h : files.safe rule root (.str rel : Val F) = .ok p)
    (hrel : files.Resolves rule (joined root rel)) :
    root <:+ p ∧ files.Settled (decide (rule = .goesOn)) p := by
  obtain ⟨text, htext, hroot, hp⟩ := safe_eq_ok h
  obtain rfl := Val.str.inj htext
  obtain ⟨loc, hloc, hsettled⟩ := hrel.settled
  rw [hloc, finish_place] at hp
  cases hp
  exact ⟨hroot, hsettled⟩

/-- A path that resolves, and that does not have too many links to be opened, is returned or refused. -/
theorem safe_str {rel : String} {p : AbsPath}
    (hnul : nulFree (lookedUp (joined root rel) (files.resolve (decide (rule = .goesOn)) (joined root rel))) = true)
    (hp : rule.finish (files.resolve (decide (rule = .goesOn)) (joined root rel)) = p)
    (hcheck : rule = .raises →
      nulFree (placeParts p.place) = true ∧ files.lookup maxLinks [] (placeParts p.place) ≠ .error .loop) :
    files.safe rule root (.str rel : Val F) =
      if p.doubled = false ∧ root <:+ p.place then .ok p.place else .error escapes := by
  have hresolve : files.resolvePath F rule (joined root rel) = .ok p := by
    simp only [resolvePath, hnul, not_true_eq_false, if_false, hp]
    split
    · next hrule =>
      obtain ⟨hplace, hne⟩ := hcheck hrule
      have hok : files.checkLoop F p = .ok () := by
        unfold checkLoop
        rw [if_neg (not_not.mpr hplace), if_neg hne]
      rw [hok]
      rfl
    · rfl
  unfold safe
  simp only [hresolve]
  rfl

end Safe

/-- **Opening a settled path** gets to its place. -/
theorem lookup_of_settled {loops : Bool} {p loc : List String} (hp : files.Settled loops p) {limit : Nat}
    (h : files.lookup limit [] (placeParts p) = .ok loc) : loc = p := by
  obtain ⟨n, hn⟩ := FileTree.walk_of_lookup h
  exact hp.walk_eq hn

/-- Where the kernel follows a path to a place, `_safe` returns the place or refuses it. -/
theorem safe_of_lookup [Runtime F] {rel : String} {limit : Nat} {loc : List String}
    (h : files.lookup limit [] (joined root rel) = .ok loc) (hrel : nulFree (joined root rel) = true)
    (hloc : nulFree (placeParts loc) = true) :
    files.safe rule root (.str rel : Val F) = if root <:+ loc then .ok loc else .error escapes := by
  obtain ⟨n, hn⟩ := FileTree.walk_of_lookup h
  have hresolve := FileTree.resolve_of_walk (decide (rule = .goesOn)) hn
  have hsafe : files.safe rule root (.str rel : Val F) =
      if (⟨false, loc⟩ : AbsPath).doubled = false ∧ root <:+ loc then .ok loc else .error escapes := by
    refine safe_str ?_ ?_ fun hrule => ⟨hloc, ?_⟩
    · rw [hresolve]
      exact hrel
    · rw [hresolve, finish_place]
    · have hsettled := FileTree.settled_resolve hresolve
      rw [hrule] at hsettled
      exact hsettled.lookup_ne_loop maxLinks
  rw [hsafe]
  exact if_congr (and_iff_right rfl) rfl rfl

/-- A project with a file, and links: one out of it, one around to itself, and one that is a loop. -/
def desk : Files where
  nodes := .ofList [(["project"], .dir), (["notes.md", "project"], .file (.ok "two trucks")),
    (["out", "project"], .link ⟨true, [.name "etc"]⟩), (["home", "project"], .link ⟨false, [.up, .name "project"]⟩),
    (["loop", "project"], .link ⟨false, [.name "loop"]⟩), (["etc"], .dir), (["passwd", "etc"], .file (.ok "root"))]
  inDir := by decide

/-- Behind a loop, the links of what is left are not looked at. -/
theorem safe_desk_loop [Runtime F] (hrule : rule ≠ .goesOn) :
    desk.safe rule ["project"] (.str "loop/../out/passwd" : Val F) = .ok ["passwd", "out", "project"] := by
  have hsafe := @safe_str F desk rule ["project"] _ "loop/../out/passwd" ⟨false, ["passwd", "out", "project"]⟩
  cases rule with
  | raises =>
    have hcheck := hsafe (by decide +kernel) (by decide +kernel) fun _ => ⟨by decide +kernel, by decide +kernel⟩
    exact hcheck.trans (if_pos (by decide))
  | stops =>
    have hcheck := hsafe (by decide +kernel) (by decide +kernel) nofun
    exact hcheck.trans (if_pos (by decide))
  | goesOn => exact absurd rfl hrule

/-- **The sandbox**, on every file system, whatever links it holds. A path that `_safe` returns is below the root.
Unless resolving it met a loop and stopped there, opening it gets to that place and to no other. Where the kernel would
follow a path to a place, `_safe` returns just that place, or raises if the place is not below the root. But only where
resolving goes on at a loop, nothing that `_safe` returns ever opens outside the root. -/
theorem safe_confines (F : Type) [Runtime F] (rule : LoopRule) :
    (∀ (files : Files) (root : List String),
      (∀ (rel : Val F) (p : List String), files.safe rule root rel = .ok p → root <:+ p) ∧
      (∀ (rel : String) (p : List String), files.safe rule root (.str rel : Val F) = .ok p →
        files.Resolves rule (joined root rel) →
          ∀ limit loc, files.lookup limit [] (placeParts p) = .ok loc → loc = p) ∧
      ∀ (rel : String) limit loc, files.lookup limit [] (joined root rel) = .ok loc →
        nulFree (joined root rel) = true → nulFree (placeParts loc) = true →
          files.safe rule root (.str rel : Val F) = if root <:+ loc then .ok loc else .error escapes) ∧
    ((∀ (files : Files) (root : List String) (rel : Val F) (p : List String), files.safe rule root rel = .ok p →
      ∀ limit loc, files.lookup limit [] (placeParts p) = .ok loc → root <:+ loc) ↔ rule = .goesOn) := by
  refine ⟨fun files root => ⟨?_, ?_, ?_⟩, ?_, ?_⟩
  · intro rel p h
    obtain ⟨_, -, hroot, -⟩ := safe_eq_ok h
    exact hroot
  · intro rel p h hrel limit loc hl
    exact lookup_of_settled (settled_of_safe h hrel).2 hl
  · intro rel limit loc h hrel hloc
    exact safe_of_lookup h hrel hloc
  · intro hconfined
    by_contra hrule
    have houtside := hconfined desk ["project"] _ _ (safe_desk_loop hrule) 40 ["passwd", "etc"] (by decide +kernel)
    exact absurd houtside (by decide)
  · intro hrule files root rel p h limit loc hl
    obtain ⟨text, rfl, hroot, -⟩ := safe_eq_ok h
    obtain rfl := lookup_of_settled (settled_of_safe h (.inl hrule)).2 hl
    exact hroot

theorem safe_confines_desk :
    (∀ limit loc, desk.lookup limit [] (placeParts ["notes.md", "project"]) = .ok loc → loc = ["notes.md", "project"]) ∧
    desk.safe .raises ["project"] (.str "home/out/passwd" : Val Whole) = .error escapes ∧
    desk.safe .raises ["project"] (.str "loop" : Val Whole) =
      .error ⟨.other "RuntimeError", "Symlink loop from '/project/loop'"⟩ ∧
    desk.safe .goesOn ["project"] (.str "loop/../out/passwd" : Val Whole) = .error escapes ∧
    ¬ ∀ (files : Files) (root : List String) (rel : Val Whole) (p : List String), files.safe .raises root rel = .ok p →
      ∀ limit loc, files.lookup limit [] (placeParts p) = .ok loc → root <:+ loc := by
  obtain ⟨hsafe, hconfined⟩ := safe_confines Whole .raises
  obtain ⟨-, hopen, hwalk⟩ := hsafe desk ["project"]
  refine ⟨hopen "home/./notes.md" _ (by decide +kernel) (by decide +kernel), ?_, by decide +kernel,
    by decide +kernel, fun h => nomatch hconfined.mp h⟩
  exact (hwalk "home/out/passwd" 40 ["passwd", "etc"] (by decide +kernel) (by decide +kernel) (by decide +kernel)).trans
    (if_neg (by decide))

/-! ## What the tools show -/

section Tools

variable [Runtime F] {loops : Bool}

theorem openPath_of_settled {p loc : List String} (hp : files.Settled loops p) (h : files.openPath F p = .ok loc) :
    loc = p := by
  unfold openPath at h
  split at h
  · cases hl : files.lookup maxLinks [] (placeParts p) with
    | error e =>
      rw [hl] at h
      cases h
    | ok loc' =>
      rw [hl] at h
      obtain rfl := Except.ok.inj h
      exact lookup_of_settled hp hl
  · cases h

/-- What is read of a settled path is in the file at its place. -/
theorem readText_eq_ok {p : List String} (hp : files.Settled loops p) {text : String}
    (h : files.readText F p = .ok text) : files.get? p = some (.file (.ok text)) := by
  obtain ⟨loc, hloc, h⟩ := Except.bind_eq_ok.mp h
  obtain rfl := openPath_of_settled hp hloc
  split at h
  · next content hnode => rw [hnode, h]
  · cases h
  · cases h

/-- What `ls` shows of a settled path is in the directory at its place. -/
theorem lsEntries_eq_ok {p : List String} (hp : files.Settled loops p) {entries : List String}
    (h : files.lsEntries F p = .ok entries) : files.get? p = some .dir ∧ entries.length ≤ 50 ∧
      entries.Pairwise (· ≤ ·) ∧ ∀ entry ∈ entries, ∃ name ∈ files.children p,
        entry = name ++ if files.isDirPath (name :: p) then "/" else "" := by
  obtain ⟨names, hnames, h⟩ := Except.bind_eq_ok.mp h
  obtain ⟨loc, hloc, hnames⟩ := Except.bind_eq_ok.mp hnames
  obtain rfl := openPath_of_settled hp hloc
  split at hnames
  · next hdir =>
    cases hnames
    cases h
    refine ⟨FileTree.isDir_iff.mp hdir, List.length_take_le .., ?_, fun entry hentry => ?_⟩
    · exact (List.pairwise_insertionSort (· ≤ ·) _).sublist (List.take_sublist ..)
    · obtain ⟨name, hname, e⟩ := List.mem_map.mp ((List.mem_insertionSort _).mp (List.mem_of_mem_take hentry))
      exact ⟨name, hname, e.symm⟩
  · cases hnames

end Tools

end Files

end HadrAgent
