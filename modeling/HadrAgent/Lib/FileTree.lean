import Mathlib.Algebra.Order.BigOperators.Group.List
import Mathlib.Algebra.Order.Group.Nat
import Mathlib.Algebra.Ring.Nat
import Mathlib.Data.List.TakeWhile
import HadrAgent.Lib.OrdDict

/-!
# File trees with symbolic links

A tree of directories, files and links (`FileTree`), with two ways to resolve a path in it:

- `Walk`: the kernel's. It follows every link it meets, and fails at a name that is not there. `lookup` computes it, as
  long as it follows no more than a given number of links (`walk_of_lookup`).
- `realpath`: the library's. It keeps the links it has resolved, goes on where a name is not there, and at a loop of
  links goes on or stops with what is left.

`realpath` finds what a walk finds (`resolve_of_walk`). A walk along a place that it returns meets no link that can be
followed (`settled_resolve`), so it ends at that place and nowhere else (`Settled.walk_eq`). Where it stops at a loop,
what is left is as it was written: nothing is said of it here but what it is as text (`asText`).
-/

/-- A component of a path. -/
inductive PathPart (ν : Type*) where
  /-- A dot, or nothing, as between two slashes. -/
  | here (dot : Bool)
  | up
  | name (x : ν)
deriving DecidableEq

/-- A path: from the root or from where it is read, and its components. -/
structure FilePath (ν : Type*) where
  absolute : Bool
  parts : List (PathPart ν)
deriving DecidableEq

/-- The place a path starts from, where it is read in `dir`. Places are lists of names, the innermost first. -/
def FilePath.start {ν : Type*} (p : FilePath ν) (dir : List ν) : List ν := if p.absolute then [] else dir

/-- Where the components of a path lead as text: a name leads down and `..` back, whatever is there. -/
def PathPart.asText {ν : Type*} : List ν → List (PathPart ν) → List ν
  | place, [] => place
  | place, .here _ :: ps => asText place ps
  | place, .up :: ps => asText place.tail ps
  | place, .name x :: ps => asText (x :: place) ps

/-- What is at a place. -/
inductive FileNode (ν κ : Type*) where
  | dir
  | file (content : κ)
  | link (target : FilePath ν)
deriving DecidableEq

/-- A tree of nodes below a root; whatever has a place is in a directory. -/
structure FileTree (ν κ : Type*) [DecidableEq ν] where
  nodes : OrdDict (List ν) (FileNode ν κ)
  inDir : ∀ loc ∈ nodes.keys, loc.tail = [] ∨ nodes.get? loc.tail = some .dir

namespace FileTree

variable {ν κ : Type*} [DecidableEq ν] (t : FileTree ν κ)

/-- What is at a place; the root is a directory. -/
def get? : List ν → Option (FileNode ν κ)
  | [] => some .dir
  | x :: dir => t.nodes.get? (x :: dir)

/-- The names in a directory. -/
def children (dir : List ν) : List ν :=
  t.nodes.keys.filterMap fun
    | [] => none
    | x :: dir' => if dir' = dir then some x else none

/-! ## The kernel's walk -/

/-- A walk from a directory along the components of a path, to the place it ends at; the number counts the links it
followed. -/
inductive Walk : Nat → List ν → List (PathPart ν) → List ν → Prop
  | done (loc : List ν) : Walk 0 loc [] loc
  | here {n : Nat} {dot : Bool} {dir loc : List ν} {ps : List (PathPart ν)} (hdir : t.get? dir = some .dir)
      (h : Walk n dir ps loc) : Walk n dir (.here dot :: ps) loc
  | up {n : Nat} {dir loc : List ν} {ps : List (PathPart ν)} (hdir : t.get? dir = some .dir)
      (h : Walk n dir.tail ps loc) : Walk n dir (.up :: ps) loc
  | enter {n : Nat} {x : ν} {dir loc : List ν} {ps : List (PathPart ν)} {node : FileNode ν κ}
      (hnode : t.get? (x :: dir) = some node) (hlink : ∀ target, node ≠ .link target) (h : Walk n (x :: dir) ps loc) :
      Walk n dir (.name x :: ps) loc
  | follow {n : Nat} {x : ν} {dir loc : List ν} {ps : List (PathPart ν)} {target : FilePath ν}
      (hnode : t.get? (x :: dir) = some (.link target)) (h : Walk n (target.start dir) (target.parts ++ ps) loc) :
      Walk (n + 1) dir (.name x :: ps) loc

variable {t}

theorem walk_nil_iff {n : Nat} {dir loc : List ν} : t.Walk n dir [] loc ↔ n = 0 ∧ loc = dir := by
  constructor
  · intro h
    cases h
    exact ⟨rfl, rfl⟩
  · rintro ⟨rfl, rfl⟩
    exact .done loc

/-- A walk along two paths ends the first one somewhere. -/
theorem Walk.split {n : Nat} {dir loc : List ν} {l : List (PathPart ν)} (h : t.Walk n dir l loc) :
    ∀ {ps qs : List (PathPart ν)}, l = ps ++ qs → ∃ m k mid, n = m + k ∧ t.Walk m dir ps mid ∧ t.Walk k mid qs loc := by
  induction h with
  | done loc =>
    intro ps qs hl
    obtain ⟨rfl, rfl⟩ := List.append_eq_nil_iff.mp hl.symm
    exact ⟨0, 0, loc, rfl, .done loc, .done loc⟩
  | here hdir h ih =>
    intro ps qs hl
    rcases List.cons_eq_append_iff.mp hl with ⟨rfl, rfl⟩ | ⟨ps, rfl, hrest⟩
    · exact ⟨0, _, _, (Nat.zero_add _).symm, .done _, .here hdir h⟩
    · obtain ⟨m, k, mid, hn, hm, hk⟩ := ih hrest
      exact ⟨m, k, mid, hn, .here hdir hm, hk⟩
  | up hdir h ih =>
    intro ps qs hl
    rcases List.cons_eq_append_iff.mp hl with ⟨rfl, rfl⟩ | ⟨ps, rfl, hrest⟩
    · exact ⟨0, _, _, (Nat.zero_add _).symm, .done _, .up hdir h⟩
    · obtain ⟨m, k, mid, hn, hm, hk⟩ := ih hrest
      exact ⟨m, k, mid, hn, .up hdir hm, hk⟩
  | enter hnode hlink h ih =>
    intro ps qs hl
    rcases List.cons_eq_append_iff.mp hl with ⟨rfl, rfl⟩ | ⟨ps, rfl, hrest⟩
    · exact ⟨0, _, _, (Nat.zero_add _).symm, .done _, .enter hnode hlink h⟩
    · obtain ⟨m, k, mid, hn, hm, hk⟩ := ih hrest
      exact ⟨m, k, mid, hn, .enter hnode hlink hm, hk⟩
  | @follow n x dir loc rs target hnode h ih =>
    intro ps qs hl
    rcases List.cons_eq_append_iff.mp hl with ⟨rfl, rfl⟩ | ⟨ps, rfl, rfl⟩
    · exact ⟨0, _, _, (Nat.zero_add _).symm, .done _, .follow hnode h⟩
    · obtain ⟨m, k, mid, hn, hm, hk⟩ := ih (List.append_assoc ..).symm
      exact ⟨m + 1, k, mid, by omega, .follow hnode hm, hk⟩

theorem Walk.append {m k : Nat} {dir mid loc : List ν} {ps qs : List (PathPart ν)} (hm : t.Walk m dir ps mid)
    (hk : t.Walk k mid qs loc) : t.Walk (m + k) dir (ps ++ qs) loc := by
  induction hm with
  | done mid => rwa [List.nil_append, Nat.zero_add]
  | here hdir _ ih => exact .here hdir (ih hk)
  | up hdir _ ih => exact .up hdir (ih hk)
  | enter hnode hlink _ ih => exact .enter hnode hlink (ih hk)
  | follow hnode _ ih =>
    rw [Nat.add_right_comm]
    refine .follow hnode ?_
    rw [List.append_assoc] at ih
    exact ih hk

/-- **A walk along two paths**, one after the other. -/
theorem walk_append_iff {n : Nat} {dir loc : List ν} {ps qs : List (PathPart ν)} :
    t.Walk n dir (ps ++ qs) loc ↔ ∃ m k mid, n = m + k ∧ t.Walk m dir ps mid ∧ t.Walk k mid qs loc := by
  refine ⟨fun h => h.split rfl, ?_⟩
  rintro ⟨m, k, mid, rfl, hm, hk⟩
  exact hm.append hk

/-- **A walk along a name and a path**: to where the name leads, and on. -/
theorem walk_cons_iff {n : Nat} {dir loc : List ν} {p : PathPart ν} {ps : List (PathPart ν)} :
    t.Walk n dir (p :: ps) loc ↔ ∃ m k mid, n = m + k ∧ t.Walk m dir [p] mid ∧ t.Walk k mid ps loc :=
  @walk_append_iff _ _ _ t n dir loc [p] ps

/-- A walk from a link goes along its target. -/
theorem walk_link_iff {n : Nat} {x : ν} {dir loc : List ν} {ps : List (PathPart ν)} {target : FilePath ν}
    (hnode : t.get? (x :: dir) = some (.link target)) : t.Walk n dir (.name x :: ps) loc ↔
      ∃ m, n = m + 1 ∧ t.Walk m (target.start dir) (target.parts ++ ps) loc := by
  constructor
  · intro h
    cases h with
    | enter hnode' hlink h => exact absurd (Option.some.inj (hnode'.symm.trans hnode)) (hlink target)
    | @follow m x dir loc ps target' hnode' h =>
      obtain rfl : target' = target := by
        injection Option.some.inj (hnode'.symm.trans hnode)
      exact ⟨m, rfl, h⟩
  · rintro ⟨m, rfl, h⟩
    exact .follow hnode h

/-- A walk from a name that is no link enters it. -/
theorem walk_of_not_link {n : Nat} {x : ν} {dir loc : List ν} {ps : List (PathPart ν)}
    (hlink : ∀ target, t.get? (x :: dir) ≠ some (.link target)) (h : t.Walk n dir (.name x :: ps) loc) :
    t.Walk n (x :: dir) ps loc := by
  cases h with
  | enter _ _ h => exact h
  | follow hnode _ => exact absurd hnode (hlink _)

/-! ## Lookups -/

/-- Why a lookup fails. -/
inductive LookupError where
  | missing | notDir | loop
deriving DecidableEq

variable (t) in
def isDir (loc : List ν) : Bool :=
  match t.get? loc with
  | some .dir => true
  | _ => false

theorem isDir_iff {loc : List ν} : t.isDir loc = true ↔ t.get? loc = some .dir := by
  unfold isDir
  cases t.get? loc with
  | none => exact iff_of_false nofun nofun
  | some node => cases node <;> simp

variable (t) in
/-- The walk along some components, up to the first link: what happens there is `follow`. -/
def lookupWith (follow : List ν → List (PathPart ν) → Except LookupError (List ν)) :
    List ν → List (PathPart ν) → Except LookupError (List ν)
  | dir, [] => .ok dir
  | dir, .here _ :: ps => if t.isDir dir then lookupWith follow dir ps else .error .notDir
  | dir, .up :: ps => if t.isDir dir then lookupWith follow dir.tail ps else .error .notDir
  | dir, .name x :: ps =>
    match t.get? (x :: dir) with
    | none => .error (if t.isDir dir then .missing else .notDir)
    | some (.link target) => follow (target.start dir) (target.parts ++ ps)
    | some _ => lookupWith follow (x :: dir) ps

variable (t) in
/-- The walk along some components, if it follows no more than `limit` links. -/
def lookup : Nat → List ν → List (PathPart ν) → Except LookupError (List ν)
  | 0 => t.lookupWith fun _ _ => .error .loop
  | limit + 1 => t.lookupWith (lookup limit)

theorem walk_of_lookupWith {follow : List ν → List (PathPart ν) → Except LookupError (List ν)}
    (hfollow : ∀ {dir ps loc}, follow dir ps = .ok loc → ∃ n, t.Walk n dir ps loc) :
    ∀ {dir : List ν} {ps : List (PathPart ν)} {loc : List ν}, t.lookupWith follow dir ps = .ok loc →
      ∃ n, t.Walk n dir ps loc
  | dir, [], loc, h => by
    obtain rfl := Except.ok.inj h
    exact ⟨0, .done _⟩
  | dir, .here _ :: ps, loc, h => by
    rw [lookupWith] at h
    split at h
    · next hdir =>
      obtain ⟨n, hn⟩ := walk_of_lookupWith hfollow h
      exact ⟨n, .here (isDir_iff.mp hdir) hn⟩
    · cases h
  | dir, .up :: ps, loc, h => by
    rw [lookupWith] at h
    split at h
    · next hdir =>
      obtain ⟨n, hn⟩ := walk_of_lookupWith hfollow h
      exact ⟨n, .up (isDir_iff.mp hdir) hn⟩
    · cases h
  | dir, .name x :: ps, loc, h => by
    rw [lookupWith] at h
    split at h
    · cases h
    · next target hnode =>
      obtain ⟨n, hn⟩ := hfollow h
      exact ⟨n + 1, .follow hnode hn⟩
    · next node hlink hnode =>
      obtain ⟨n, hn⟩ := walk_of_lookupWith hfollow h
      exact ⟨n, .enter hnode (fun target e => hlink target e) hn⟩

/-- **A lookup that succeeds** is a walk. -/
theorem walk_of_lookup : ∀ {limit : Nat} {dir loc : List ν} {ps : List (PathPart ν)},
    t.lookup limit dir ps = .ok loc → ∃ n, t.Walk n dir ps loc
  | 0, _, _, _, h => by
    refine walk_of_lookupWith ?_ h
    intro dir ps loc e
    cases e
  | _ + 1, _, _, _, h => walk_of_lookupWith walk_of_lookup h

/-! ## The library's resolution -/

/-- What is left to resolve: components, and marks behind the target of a link. -/
inductive Pending (ν : Type*) where
  | part (p : PathPart ν)
  | resolved (link : List ν)

/-- What a resolution comes to: a place, or a link that is met while its own target is being resolved, and what is left
to resolve then. -/
inductive Resolution (ν : Type*) where
  | place (loc : List ν)
  | loop (link : List ν) (rest : List (Pending ν))

/-- The links met so far, each with the place it leads to once that is known. -/
abbrev Seen (ν : Type*) := OrdDict (List ν) (Option (List ν))

/-- What a link that was not met yet may still cost. -/
def cost (seen : Seen ν) : List ν × FileNode ν κ → Nat
  | (loc, .link target) => if seen.get? loc = none then target.parts.length + 2 else 0
  | _ => 0

variable (t) in
/-- The steps a resolution may still take. -/
def budget (rest : List (Pending ν)) (seen : Seen ν) : Nat := rest.length + (t.nodes.items.map (cost seen)).sum

theorem cost_insert_le (seen : Seen ν) (link : List ν) (v : Option (List ν)) (p : List ν × FileNode ν κ) :
    cost (seen.insert link v) p ≤ cost seen p := by
  obtain ⟨loc, node⟩ := p
  cases node with
  | link target =>
    simp only [cost, OrdDict.get?_insert]
    by_cases e : loc = link
    · simp [e]
    · rw [if_neg e]
  | _ => exact Nat.le_refl _

theorem sum_cost_insert_le (l : List (List ν × FileNode ν κ)) (seen : Seen ν) (link : List ν) (v : Option (List ν)) :
    (l.map (cost (seen.insert link v))).sum ≤ (l.map (cost seen)).sum :=
  List.sum_le_sum fun p _ => cost_insert_le seen link v p

/-- A link that is met pays for its target. -/
theorem sum_cost_insert_of_link {x : ν} {dir : List ν} {target : FilePath ν} {seen : Seen ν}
    (hnode : t.get? (x :: dir) = some (.link target)) (hseen : seen.get? (x :: dir) = none) :
    (t.nodes.items.map (cost (seen.insert (x :: dir) none))).sum + target.parts.length + 2 ≤
      (t.nodes.items.map (cost seen)).sum := by
  obtain ⟨l, r, hlr⟩ := List.append_of_mem (OrdDict.get?_eq_some.mp hnode)
  have hl := sum_cost_insert_le l seen (x :: dir) none
  have hr := sum_cost_insert_le r seen (x :: dir) none
  rw [hlr]
  simp only [List.map_append, List.map_cons, List.sum_append, List.sum_cons, cost, OrdDict.get?_insert_self, hseen]
  simp only [reduceCtorEq, ↓reduceIte]
  omega

variable (t) in
/-- `os.path.realpath`, on what is left of a path. At a loop it stops, or with `goOn` keeps the link and goes on. -/
def realpath (goOn : Bool) (path : List ν) (rest : List (Pending ν)) (seen : Seen ν) : Resolution ν :=
  match rest with
  | [] => .place path
  | .resolved link :: rest => realpath goOn path rest (seen.insert link (some path))
  | .part (.here _) :: rest => realpath goOn path rest seen
  | .part .up :: rest => realpath goOn path.tail rest seen
  | .part (.name x) :: rest =>
    match _ : t.get? (x :: path) with
    | some (.link target) =>
      match hseen : seen.get? (x :: path) with
      | some (some loc) => realpath goOn loc rest seen
      | some none => if goOn then realpath goOn (x :: path) rest seen else .loop (x :: path) rest
      | none => realpath goOn (target.start path)
          (target.parts.map .part ++ .resolved (x :: path) :: rest) (seen.insert (x :: path) none)
    | _ => realpath goOn (x :: path) rest seen
termination_by t.budget rest seen
decreasing_by
  all_goals simp only [budget, List.length_cons, List.length_append, List.length_map]
  · have := sum_cost_insert_le t.nodes.items seen link (some path)
    omega
  · omega
  · omega
  · omega
  · omega
  · have := sum_cost_insert_of_link ‹t.get? _ = _› hseen
    omega
  · omega

section Equations

variable {goOn : Bool} {path : List ν} {rest : List (Pending ν)} {seen : Seen ν} {x : ν}

theorem realpath_nil : t.realpath goOn path [] seen = .place path := by rw [realpath]

theorem realpath_resolved (link : List ν) : t.realpath goOn path (.resolved link :: rest) seen =
    t.realpath goOn path rest (seen.insert link (some path)) := by rw [realpath]

theorem realpath_here (dot : Bool) :
    t.realpath goOn path (.part (.here dot) :: rest) seen = t.realpath goOn path rest seen := by
  rw [realpath]

theorem realpath_up : t.realpath goOn path (.part .up :: rest) seen = t.realpath goOn path.tail rest seen := by
  rw [realpath]

theorem realpath_enter (hlink : ∀ target, t.get? (x :: path) ≠ some (.link target)) :
    t.realpath goOn path (.part (.name x) :: rest) seen = t.realpath goOn (x :: path) rest seen := by
  rw [realpath]
  split
  · next target hnode => exact absurd hnode (hlink target)
  · rfl

variable {target : FilePath ν} (hnode : t.get? (x :: path) = some (.link target))
include hnode

theorem realpath_known {loc : List ν} (hseen : seen.get? (x :: path) = some (some loc)) :
    t.realpath goOn path (.part (.name x) :: rest) seen = t.realpath goOn loc rest seen := by
  rw [realpath]
  split
  · split
    · next hseen' =>
      rw [hseen] at hseen'
      cases hseen'
      rfl
    · next hseen' => cases hseen.symm.trans hseen'
    · next hseen' => cases hseen.symm.trans hseen'
  · next hno => exact absurd hnode (hno target)

theorem realpath_loop (hseen : seen.get? (x :: path) = some none) :
    t.realpath goOn path (.part (.name x) :: rest) seen =
      if goOn then t.realpath goOn (x :: path) rest seen else .loop (x :: path) rest := by
  rw [realpath]
  split
  · split
    · next hseen' => cases hseen.symm.trans hseen'
    · rfl
    · next hseen' => cases hseen.symm.trans hseen'
  · next hno => exact absurd hnode (hno target)

theorem realpath_follow (hseen : seen.get? (x :: path) = none) :
    t.realpath goOn path (.part (.name x) :: rest) seen = t.realpath goOn (target.start path)
      (target.parts.map .part ++ .resolved (x :: path) :: rest) (seen.insert (x :: path) none) := by
  rw [realpath]
  split
  · next target' hnode' =>
    rw [hnode] at hnode'
    cases hnode'
    split
    · next hseen' => cases hseen.symm.trans hseen'
    · next hseen' => cases hseen.symm.trans hseen'
    · rfl
  · next hno => exact absurd hnode (hno target)

end Equations

/-! ## Settled places -/

variable (t) in
/-- On the way to the place there is no link, or with `loops` none that can be followed. -/
def Settled (loops : Bool) : List ν → Prop
  | [] => True
  | x :: dir => Settled loops dir ∧ ∀ target, t.get? (x :: dir) = some (.link target) →
      loops = true ∧ ∀ n loc, ¬ t.Walk n dir [.name x] loc

variable {loops : Bool}

/-- **A walk to a settled place** follows no link. -/
theorem Settled.walk_eq : ∀ {loc : List ν}, t.Settled loops loc → ∀ {n : Nat} {loc' : List ν},
    t.Walk n [] (loc.reverse.map .name) loc' → loc' = loc
  | [], _, n, loc', h => (walk_nil_iff.mp h).2
  | x :: dir, hs, n, loc', h => by
    rw [List.reverse_cons, List.map_append, walk_append_iff] at h
    obtain ⟨m, k, mid, -, hm, hk⟩ := h
    obtain rfl := hs.1.walk_eq hm
    by_cases hlink : ∃ target, t.get? (x :: mid) = some (.link target)
    · obtain ⟨target, hnode⟩ := hlink
      exact absurd hk ((hs.2 target hnode).2 k loc')
    · exact (walk_nil_iff.mp (walk_of_not_link (fun target e => hlink ⟨target, e⟩) hk)).2

/-- A lookup along a place without links gets there, or fails for another reason than links. -/
theorem Settled.lookupWith (follow : List ν → List (PathPart ν) → Except LookupError (List ν)) :
    ∀ {loc : List ν}, t.Settled false loc → ∀ ps : List (PathPart ν),
      t.lookupWith follow [] (loc.reverse.map .name ++ ps) = t.lookupWith follow loc ps ∨
        ∃ e, e ≠ .loop ∧ t.lookupWith follow [] (loc.reverse.map .name ++ ps) = .error e
  | [], _, ps => .inl rfl
  | x :: dir, hs, ps => by
    have happend : (x :: dir).reverse.map PathPart.name ++ ps = dir.reverse.map .name ++ (.name x :: ps) := by simp
    rw [happend]
    rcases hs.1.lookupWith follow (.name x :: ps) with h | h
    · rw [h, FileTree.lookupWith]
      cases hnode : t.get? (x :: dir) with
      | none => exact .inr ⟨_, by split <;> exact nofun, rfl⟩
      | some node =>
        cases node with
        | link target => exact absurd (hs.2 target hnode).1 Bool.false_ne_true
        | dir => exact .inl rfl
        | file content => exact .inl rfl
    · exact .inr h

theorem Settled.lookup_ne_loop {loc : List ν} (hs : t.Settled false loc) (limit : Nat) :
    t.lookup limit [] (loc.reverse.map .name) ≠ .error .loop := by
  have hstep : ∀ follow, t.lookupWith follow [] (loc.reverse.map .name) ≠ .error .loop := by
    intro follow h
    rw [← List.append_nil (loc.reverse.map _)] at h
    rcases hs.lookupWith follow [] with e | ⟨e, hne, he⟩
    · cases e.symm.trans h
    · exact hne (Except.error.inj (he.symm.trans h))
  cases limit with
  | zero => exact hstep _
  | succ limit => exact hstep _

/-! ## The resolution tracks the walk -/

section Parts

omit [DecidableEq ν]

/-- The components that are left. -/
def parts : List (Pending ν) → List (PathPart ν)
  | [] => []
  | .part p :: rest => p :: parts rest
  | .resolved _ :: rest => parts rest

theorem parts_append (ps : List (PathPart ν)) (rest : List (Pending ν)) :
    parts (ps.map .part ++ rest) = ps ++ parts rest := by
  induction ps with
  | nil => rfl
  | cons p ps ih => exact congrArg (p :: ·) ih

/-- A mark stands behind components. -/
theorem split_append {link : List ν} {pre post rest : List (Pending ν)} : ∀ {ps : List (PathPart ν)},
    ps.map .part ++ rest = pre ++ .resolved link :: post →
      ∃ pre', pre = ps.map .part ++ pre' ∧ rest = pre' ++ .resolved link :: post
  | [], h => ⟨pre, rfl, h⟩
  | p :: ps, h => by
    cases pre with
    | nil => cases h
    | cons q pre =>
      obtain ⟨rfl, htail⟩ := List.cons.inj h
      obtain ⟨pre', rfl, hrest⟩ := split_append htail
      exact ⟨pre', rfl, hrest⟩

end Parts

variable (t) in
/-- A walk from the place of a link. -/
def Leads (n : Nat) (link loc : List ν) : Prop := ∃ x dir, link = x :: dir ∧ t.Walk n dir [.name x] loc

variable (t) in
/-- What holds while a path is resolved: the place reached is settled; a link that is known leads to its place only; and
a walk along a link whose target is being resolved comes by the place reached. -/
structure Tracks (loops : Bool) (path : List ν) (rest : List (Pending ν)) (seen : Seen ν) : Prop where
  settled : t.Settled loops path
  known : ∀ link loc, seen.get? link = some (some loc) →
    t.Settled loops loc ∧ ∀ n loc', t.Leads n link loc' → loc' = loc
  marked : ∀ link, seen.get? link = some none → .resolved link ∈ rest
  passes : ∀ link pre post, rest = pre ++ .resolved link :: post → ∀ n loc, t.Leads n link loc →
    ∃ m < n, t.Walk m path (parts pre) loc

namespace Tracks

variable {path path' : List ν} {rest : List (Pending ν)} {seen : Seen ν} {p : PathPart ν} {x : ν}

/-- A component is read. -/
theorem step (h : t.Tracks loops path (.part p :: rest) seen) (hs : t.Settled loops path')
    (hwalk : ∀ m ps loc, t.Walk m path (p :: ps) loc → ∃ k ≤ m, t.Walk k path' ps loc) :
    t.Tracks loops path' rest seen where
  settled := hs
  known := h.known
  marked link hlink := by
    rcases List.mem_cons.mp (h.marked link hlink) with e | hm
    · cases e
    · exact hm
  passes link pre post e n loc hl := by
    obtain ⟨m, hm, hw⟩ := h.passes link (.part p :: pre) post (congrArg _ e) n loc hl
    obtain ⟨k, hk, hw⟩ := hwalk m _ loc hw
    exact ⟨k, by omega, hw⟩

/-- **A loop**: a link that is met while its target is being resolved leads nowhere. -/
theorem no_walk (h : t.Tracks loops path (.part (.name x) :: rest) seen) (hseen : seen.get? (x :: path) = some none)
    (n : Nat) :
    ∀ loc, ¬ t.Walk n path [.name x] loc := by
  obtain ⟨pre, post, e⟩ := List.append_of_mem (h.marked _ hseen)
  cases pre with
  | nil => cases e
  | cons q pre =>
    obtain ⟨rfl, -⟩ := List.cons.inj e
    induction n using Nat.strong_induction_on with
    | _ n ih =>
      intro loc hw
      obtain ⟨m, hm, hw'⟩ := h.passes _ _ post e n loc ⟨x, path, rfl, hw⟩
      obtain ⟨k, _, mid, rfl, hk, -⟩ := walk_cons_iff.mp hw'
      exact ih k (by omega) mid hk

/-- A link is met for the first time. -/
theorem follow {target : FilePath ν} (h : t.Tracks loops path (.part (.name x) :: rest) seen)
    (hnode : t.get? (x :: path) = some (.link target)) : t.Tracks loops (target.start path)
      (target.parts.map .part ++ .resolved (x :: path) :: rest) (seen.insert (x :: path) none) where
  settled := by
    unfold FilePath.start
    split
    · trivial
    · exact h.settled
  known link loc hlink := by
    rw [OrdDict.get?_insert] at hlink
    split at hlink
    · cases hlink
    · exact h.known link loc hlink
  marked link hlink := by
    rw [OrdDict.get?_insert] at hlink
    refine List.mem_append_right _ ?_
    split at hlink
    · next e => exact e ▸ List.mem_cons_self
    · rcases List.mem_cons.mp (h.marked link hlink) with e | hm
      · cases e
      · exact List.mem_cons_of_mem _ hm
  passes link pre post e n loc hl := by
    obtain ⟨pre, rfl, hmark⟩ := split_append e
    rw [parts_append]
    cases pre with
    | nil =>
      obtain rfl := Pending.resolved.inj (List.cons.inj hmark).1
      obtain ⟨_, _, hplace, hw⟩ := hl
      obtain ⟨rfl, rfl⟩ := List.cons.inj hplace
      obtain ⟨m, rfl, hm⟩ := (walk_link_iff hnode).mp hw
      exact ⟨m, by omega, hm⟩
    | cons q pre =>
      obtain ⟨rfl, hrest⟩ := List.cons.inj hmark
      obtain ⟨m, hm, hw⟩ := h.passes link (.part (.name x) :: pre) post (congrArg _ hrest) n loc hl
      obtain ⟨k, rfl, hk⟩ := (walk_link_iff hnode).mp hw
      exact ⟨k, by omega, hk⟩

/-- The target of a link is resolved. -/
theorem resolved {link : List ν} (h : t.Tracks loops path (.resolved link :: rest) seen) :
    t.Tracks loops path rest (seen.insert link (some path)) where
  settled := h.settled
  known link' loc hlink := by
    rw [OrdDict.get?_insert] at hlink
    split at hlink
    · next e =>
      obtain rfl := Option.some.inj (Option.some.inj hlink)
      refine ⟨h.settled, fun n loc' hl => ?_⟩
      obtain ⟨m, -, hw⟩ := h.passes link [] rest rfl n loc' (e ▸ hl)
      exact (walk_nil_iff.mp hw).2
    · exact h.known link' loc hlink
  marked link' hlink := by
    rw [OrdDict.get?_insert] at hlink
    split at hlink
    · cases hlink
    · next e =>
      rcases List.mem_cons.mp (h.marked link' hlink) with e' | hm
      · exact absurd (Pending.resolved.inj e') e
      · exact hm
  passes link' pre post e n loc hl := h.passes link' (.resolved link :: pre) post (congrArg _ e) n loc hl

end Tracks

/-- **The resolution**, from any point on: where it ends is settled, and it ends where a walk does. By induction along
it; what it still has to do keeps track of the links met (`Tracks`). -/
theorem realpath_spec (goOn : Bool) {path : List ν} {rest : List (Pending ν)} {seen : Seen ν}
    (h : t.Tracks goOn path rest seen) :
    (∀ loc, t.realpath goOn path rest seen = .place loc → t.Settled goOn loc) ∧
      ∀ n loc, t.Walk n path (parts rest) loc → t.realpath goOn path rest seen = .place loc := by
  induction path, rest, seen using realpath.induct t goOn with
  | case1 path seen =>
    rw [realpath_nil]
    refine ⟨fun loc e => Resolution.place.inj e ▸ h.settled, fun n loc hw => ?_⟩
    rw [(walk_nil_iff.mp hw).2]
  | case2 path seen link rest ih =>
    rw [realpath_resolved]
    exact ih h.resolved
  | case3 path seen dot rest ih =>
    have hwalk : ∀ m ps loc, t.Walk m path (.here dot :: ps) loc → t.Walk m path ps loc := fun m ps loc hw => by
      cases hw with | here _ hw => exact hw
    obtain ⟨hs, hr⟩ := ih (h.step h.settled fun m ps loc hw => ⟨m, le_rfl, hwalk m ps loc hw⟩)
    rw [realpath_here]
    exact ⟨hs, fun n loc hw => hr n loc (hwalk n _ loc hw)⟩
  | case4 path seen rest ih =>
    have hwalk : ∀ m ps loc, t.Walk m path (.up :: ps) loc → t.Walk m path.tail ps loc := fun m ps loc hw => by
      cases hw with | up _ hw => exact hw
    have hsettled : t.Settled goOn path.tail := by
      cases path with
      | nil => trivial
      | cons x dir => exact h.settled.1
    obtain ⟨hs, hr⟩ := ih (h.step hsettled fun m ps loc hw => ⟨m, le_rfl, hwalk m ps loc hw⟩)
    rw [realpath_up]
    exact ⟨hs, fun n loc hw => hr n loc (hwalk n _ loc hw)⟩
  | case5 path seen x rest target hnode place hseen ih =>
    obtain ⟨hplace, hleads⟩ := h.known _ _ hseen
    have hwalk : ∀ m ps loc, t.Walk m path (.name x :: ps) loc → ∃ k ≤ m, t.Walk k place ps loc := by
      intro m ps loc hw
      obtain ⟨j, k, mid, rfl, hj, hk⟩ := walk_cons_iff.mp hw
      obtain rfl := hleads j mid ⟨x, path, rfl, hj⟩
      exact ⟨k, by omega, hk⟩
    obtain ⟨hs, hr⟩ := ih (h.step hplace hwalk)
    rw [realpath_known hnode hseen]
    refine ⟨hs, fun n loc hw => ?_⟩
    obtain ⟨k, -, hk⟩ := hwalk n _ loc hw
    exact hr k loc hk
  | case6 path seen x rest target hnode hseen hgoOn ih =>
    have hno : ∀ m ps loc, ¬ t.Walk m path (.name x :: ps) loc := fun m ps loc hw => by
      obtain ⟨k, _, mid, -, hk, -⟩ := walk_cons_iff.mp hw
      exact h.no_walk hseen k mid hk
    have hsettled : t.Settled goOn (x :: path) := ⟨h.settled, fun _ _ => ⟨hgoOn, fun n loc => h.no_walk hseen n loc⟩⟩
    obtain ⟨hs, -⟩ := ih (h.step hsettled fun m ps loc hw => absurd hw (hno m ps loc))
    rw [realpath_loop hnode hseen, if_pos hgoOn]
    exact ⟨hs, fun n loc hw => absurd hw (hno n _ loc)⟩
  | case7 path seen x rest target hnode hseen hgoOn =>
    rw [realpath_loop hnode hseen, if_neg hgoOn]
    refine ⟨nofun, fun n loc hw => ?_⟩
    obtain ⟨k, _, mid, -, hk, -⟩ := walk_cons_iff.mp hw
    exact absurd hk (h.no_walk hseen k mid)
  | case8 path seen x rest target hnode hseen ih =>
    obtain ⟨hs, hr⟩ := ih (h.follow hnode)
    rw [realpath_follow hnode hseen]
    refine ⟨hs, fun n loc hw => ?_⟩
    obtain ⟨m, rfl, hm⟩ := (walk_link_iff hnode).mp hw
    refine hr m loc ?_
    rw [parts_append]
    exact hm
  | case9 path seen x rest hlink ih =>
    have hlink' : ∀ target, t.get? (x :: path) ≠ some (.link target) := fun target e => hlink target e
    have hsettled : t.Settled goOn (x :: path) := ⟨h.settled, fun target e => absurd e (hlink' target)⟩
    obtain ⟨hs, hr⟩ := ih (h.step hsettled fun m ps loc hw => ⟨m, le_rfl, walk_of_not_link hlink' hw⟩)
    rw [realpath_enter hlink']
    exact ⟨hs, fun n loc hw => hr n loc (walk_of_not_link hlink' hw)⟩

/-- A resolution that goes on at loops ends at a place. -/
theorem realpath_goOn (path : List ν) (rest : List (Pending ν)) (seen : Seen ν) :
    ∃ loc, t.realpath true path rest seen = .place loc := by
  induction path, rest, seen using realpath.induct t true with
  | case1 path seen => exact ⟨path, realpath_nil⟩
  | case2 path seen link rest ih =>
    rw [realpath_resolved]
    exact ih
  | case3 path seen dot rest ih =>
    rw [realpath_here]
    exact ih
  | case4 path seen rest ih =>
    rw [realpath_up]
    exact ih
  | case5 path seen x rest target hnode place hseen ih =>
    rw [realpath_known hnode hseen]
    exact ih
  | case6 path seen x rest target hnode hseen hgoOn ih =>
    rw [realpath_loop hnode hseen, if_pos rfl]
    exact ih
  | case7 path seen x rest target hnode hseen hgoOn => exact absurd rfl hgoOn
  | case8 path seen x rest target hnode hseen ih =>
    rw [realpath_follow hnode hseen]
    exact ih
  | case9 path seen x rest hlink ih =>
    rw [realpath_enter fun target e => hlink target e]
    exact ih

/-! ## Resolving a path -/

variable (t) in
/-- What a path from the root resolves to. -/
def resolve (goOn : Bool) (ps : List (PathPart ν)) : Resolution ν :=
  t.realpath goOn [] (ps.map .part) .empty

theorem tracks_start (loops : Bool) (rest : List (PathPart ν)) : t.Tracks loops [] (rest.map .part) .empty where
  settled := trivial
  known link loc h := by cases h
  marked link h := by cases h
  passes link pre post e n loc hl := by
    rw [← List.append_nil (rest.map _)] at e
    obtain ⟨pre', -, e⟩ := split_append e
    cases pre' <;> cases e

/-- **The place that a path resolves to is settled.** -/
theorem settled_resolve {goOn : Bool} {ps : List (PathPart ν)} {loc : List ν} (h : t.resolve goOn ps = .place loc) :
    t.Settled goOn loc := (realpath_spec goOn (tracks_start goOn ps)).1 loc h

/-- **Where a walk ends, the path resolves to.** -/
theorem resolve_of_walk (goOn : Bool) {n : Nat} {ps : List (PathPart ν)} {loc : List ν} (h : t.Walk n [] ps loc) :
    t.resolve goOn ps = .place loc := by
  refine (realpath_spec goOn (tracks_start goOn ps)).2 n loc ?_
  rw [← List.append_nil (ps.map _), parts_append]
  rwa [parts, List.append_nil]

end FileTree
