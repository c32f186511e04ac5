import ScriptLint.FileSystem.Basic
import ScriptLint.Proofs.PathOrder

/-!
# Trees of entries

What a file system holds is told by what lies at each place. Two trees that hold the same at every
place differ at most in the order in which directories list their entries, and no path can tell
them apart: it leads to the same place in both, or it fails in both for the same reason.

A link at the end of a path is followed or not. If it is not, the path leads to the link itself,
and apart from that to the same place.
-/

namespace ScriptLint

namespace Entry

/-! ## Induction over entries -/

/-- What holds of files and links, and of a directory if it holds of its entries, holds of all
entries. -/
theorem induction {P : Entry → Prop} (file : ∀ bytes, P (.file bytes))
    (link : ∀ target, P (.link target))
    (directory : ∀ entries, (∀ name entry, (name, entry) ∈ entries → P entry) →
      P (.directory entries)) : ∀ entry, P entry
  | .file bytes => file bytes
  | .link target => link target
  | .directory entries => directory entries fun _ entry _ => induction file link directory entry
termination_by entry => sizeOf entry
decreasing_by
  have hsize := List.sizeOf_lt_of_mem ‹_›
  simp only [Prod.mk.sizeOf_spec, Entry.directory.sizeOf_spec] at hsize ⊢
  omega

/-! ## Well-named trees -/

mutual

/-- Every directory at and below the entry has proper names, and no name twice. -/
def isWellNamed : Entry → Bool
  | .directory entries => areWellNamed entries
  | _ => true

/-- The entries of a directory have proper names, no two the same, and are well named. -/
def areWellNamed : List (String × Entry) → Bool
  | [] => true
  | (name, entry) :: rest =>
      Path.isName name && !(rest.map Prod.fst).contains name && entry.isWellNamed &&
        areWellNamed rest

end

theorem areWellNamed_cons {name : String} {entry : Entry} {rest : List (String × Entry)} :
    areWellNamed ((name, entry) :: rest) = true ↔
      Path.isName name = true ∧ name ∉ rest.map Prod.fst ∧ entry.isWellNamed = true ∧
        areWellNamed rest = true := by
  rw [areWellNamed]
  simp [and_assoc]

theorem nodup_of_areWellNamed {entries : List (String × Entry)}
    (h : areWellNamed entries = true) : (entries.map Prod.fst).Nodup := by
  induction entries with
  | nil => exact .nil
  | cons first rest ih =>
      obtain ⟨-, hnew, -, hrest⟩ := areWellNamed_cons.mp h
      exact List.nodup_cons.mpr ⟨hnew, ih hrest⟩

theorem isWellNamed_of_mem {entries : List (String × Entry)} (h : areWellNamed entries = true)
    {name : String} {entry : Entry} (hmem : (name, entry) ∈ entries) :
    Path.isName name = true ∧ entry.isWellNamed = true := by
  induction entries with
  | nil => exact absurd hmem List.not_mem_nil
  | cons first rest ih =>
      obtain ⟨hname, -, hentry, hrest⟩ := areWellNamed_cons.mp h
      rcases List.mem_cons.mp hmem with hsame | hlater
      · cases hsame
        exact ⟨hname, hentry⟩
      · exact ih hrest hlater

/-- Where no name stands twice, looking a name up is finding its entry. -/
theorem lookup_eq_some_iff {entries : List (String × Entry)} (h : (entries.map Prod.fst).Nodup)
    {name : String} {entry : Entry} :
    List.lookup name entries = some entry ↔ (name, entry) ∈ entries := by
  induction entries with
  | nil => simp
  | cons first rest ih =>
      obtain ⟨hnew, hrest⟩ := List.nodup_cons.mp h
      obtain ⟨other, first⟩ := first
      rw [List.lookup_cons]
      by_cases hname : name = other
      · subst hname
        have hnone : (name, entry) ∉ rest := by
          intro hmem
          exact hnew (List.mem_map.mpr ⟨_, hmem, rfl⟩)
        simp [hnone, eq_comm]
      · have hother : (name == other) = false := beq_eq_false_iff_ne.mpr hname
        rw [hother]
        simp [hname, ih hrest]

/-! ## What lies at a place -/

/-- What lies at a place below an entry. -/
def below? (place : Place) : Entry → Option Entry
  | .directory entries => find? place entries
  | entry => if place.isEmpty then some entry else none

theorem below?_nil (entry : Entry) : below? [] entry = some entry := by
  cases entry <;> rfl

theorem find?_cons (name : String) (place : Place) (entries : List (String × Entry)) :
    find? (name :: place) entries = (List.lookup name entries).bind (below? place) := by
  rw [find?]
  cases List.lookup name entries with
  | none => rfl
  | some entry => cases entry <;> rfl

theorem find?_singleton (name : String) (entries : List (String × Entry)) :
    find? [name] entries = List.lookup name entries := by
  rw [find?_cons, funext below?_nil]
  cases List.lookup name entries <;> rfl

/-- A place below a directory. -/
theorem find?_append {place : Place} {entries inner : List (String × Entry)}
    (h : find? place entries = some (.directory inner)) (place' : Place) :
    find? (place ++ place') entries = find? place' inner := by
  induction place generalizing entries with
  | nil =>
      cases h
      rfl
  | cons name place ih =>
      rw [find?_cons] at h
      rw [List.cons_append, find?_cons]
      cases hentry : List.lookup name entries with
      | none =>
          rw [hentry] at h
          cases h
      | some entry =>
          rw [hentry, Option.bind_some] at h
          rw [Option.bind_some]
          cases entry with
          | directory entries' => exact ih h
          | file bytes =>
              cases place <;> cases h
          | link target =>
              cases place <;> cases h

end Entry

/-- What kind of thing an entry is, with all there is to it except what a directory lists. -/
inductive EntryKind where
  | file (bytes : ByteArray)
  | directory
  | link (target : String)

def Entry.kind : Entry → EntryKind
  | .file bytes => .file bytes
  | .directory _ => .directory
  | .link target => .link target

/-- Nothing in both cases, or things of the same kind. -/
inductive SameKind : Option Entry → Option Entry → Prop where
  | none : SameKind none none
  | file (bytes : ByteArray) : SameKind (some (.file bytes)) (some (.file bytes))
  | directory (inner inner' : List (String × Entry)) :
      SameKind (some (.directory inner)) (some (.directory inner'))
  | link (target : String) : SameKind (some (.link target)) (some (.link target))

theorem sameKind_of_map_kind {entry entry' : Option Entry}
    (h : entry.map Entry.kind = entry'.map Entry.kind) : SameKind entry entry' := by
  rcases entry with _ | ⟨bytes⟩ | ⟨inner⟩ | ⟨target⟩ <;>
    rcases entry' with _ | ⟨bytes'⟩ | ⟨inner'⟩ | ⟨target'⟩ <;> cases h
  · exact .none
  · exact .file bytes
  · exact .directory inner inner'
  · exact .link target

/-- The same lies at every place, whatever the order in which directories list it. -/
def SameTree (root root' : List (String × Entry)) : Prop :=
  ∀ place, (Entry.find? place root).map Entry.kind = (Entry.find? place root').map Entry.kind

namespace SameTree

variable {root root' : List (String × Entry)}

theorem refl (root : List (String × Entry)) : SameTree root root :=
  fun _ => rfl

/-- Directories at the same place hold the same trees. -/
theorem inner (h : SameTree root root') {place : Place} {inner inner' : List (String × Entry)}
    (hinner : Entry.find? place root = some (.directory inner))
    (hinner' : Entry.find? place root' = some (.directory inner')) : SameTree inner inner' := by
  intro place'
  rw [← Entry.find?_append hinner, ← Entry.find?_append hinner']
  exact h (place ++ place')

/-- Listing the entries of a directory in another order leaves the tree the same. -/
theorem of_perm (hperm : root.Perm root') (hnames : (root.map Prod.fst).Nodup) :
    SameTree root root' := by
  have hlookup : ∀ name, List.lookup name root = List.lookup name root' := by
    intro name
    have hnames' : (root'.map Prod.fst).Nodup := (hperm.map Prod.fst).nodup hnames
    apply Option.ext
    intro entry
    rw [Entry.lookup_eq_some_iff hnames, Entry.lookup_eq_some_iff hnames', hperm.mem_iff]
  intro place
  cases place with
  | nil => rfl
  | cons name place => rw [Entry.find?_cons, Entry.find?_cons, hlookup]

end SameTree

/-! ## Trails -/

namespace Trail

/-- Each directory of the trail stands in the one before it under its name. -/
def Leads (root : List (String × Entry)) : Trail → Prop
  | [] => True
  | (name, inner) :: outer =>
      List.lookup name (entries root outer) = some (.directory inner) ∧ Leads root outer

variable {root root' : List (String × Entry)} {here here' : Trail}

theorem place_cons (name : String) (inner : List (String × Entry)) (outer : Trail) :
    place ((name, inner) :: outer) = outer.place ++ [name] := by
  simp [place]

theorem Leads.tail (h : Leads root here) : Leads root here.tail := by
  cases here with
  | nil => trivial
  | cons first outer => exact h.2

theorem Leads.find? (h : Leads root here) (place : Place) :
    Entry.find? (here.place ++ place) root = Entry.find? place (here.entries root) := by
  induction here generalizing place with
  | nil => rfl
  | cons first outer ih =>
      obtain ⟨name, inner⟩ := first
      obtain ⟨hname, houter⟩ := h
      rw [place_cons, List.append_assoc, ih houter, List.singleton_append, Entry.find?_cons, hname]
      rfl

/-- What a name stands for where a trail ends. -/
theorem Leads.lookup (h : Leads root here) (name : String) :
    Entry.find? (here.place ++ [name]) root = List.lookup name (here.entries root) := by
  rw [h.find?, Entry.find?_singleton]

/-- Trails to the same place in two trees. -/
structure Alike (root root' : List (String × Entry)) (here here' : Trail) : Prop where
  leads : here.Leads root
  leads' : here'.Leads root'
  place : here.place = here'.place

theorem alike_nil (root root' : List (String × Entry)) : Alike root root' [] [] :=
  ⟨trivial, trivial, rfl⟩

theorem Alike.tail (h : Alike root root' here here') : Alike root root' here.tail here'.tail := by
  refine ⟨h.leads.tail, h.leads'.tail, ?_⟩
  have hnames := congrArg List.reverse h.place
  rw [Trail.place, Trail.place, List.reverse_reverse, List.reverse_reverse] at hnames
  rw [Trail.place, Trail.place, List.map_tail, List.map_tail, hnames]

theorem Alike.cons (h : Alike root root' here here') {name : String}
    {inner inner' : List (String × Entry)}
    (hinner : List.lookup name (here.entries root) = some (.directory inner))
    (hinner' : List.lookup name (here'.entries root') = some (.directory inner')) :
    Alike root root' ((name, inner) :: here) ((name, inner') :: here') := by
  refine ⟨⟨hinner, h.leads⟩, ⟨hinner', h.leads'⟩, ?_⟩
  rw [place_cons, place_cons, h.place]

theorem Alike.lookup (h : Alike root root' here here') (hsame : SameTree root root')
    (name : String) :
    SameKind (List.lookup name (here.entries root)) (List.lookup name (here'.entries root')) := by
  rw [← h.leads.lookup, ← h.leads'.lookup, ← h.place]
  exact sameKind_of_map_kind (hsame _)

/-- Trails that go on from alike ones to the same place are alike, or there is none in either
tree. -/
theorem Alike.extend? (hsame : SameTree root root') (place : Place)
    (h : Alike root root' here here') :
    Option.Rel (Alike root root') (here.extend? place (here.entries root))
      (here'.extend? place (here'.entries root')) := by
  induction place generalizing here here' with
  | nil => exact .some h
  | cons name place ih =>
      have hkind := h.lookup hsame name
      rw [Trail.extend?, Trail.extend?]
      generalize hentry : List.lookup name (here.entries root) = entry at hkind ⊢
      generalize hentry' : List.lookup name (here'.entries root') = entry' at hkind ⊢
      cases hkind with
      | none => exact .none
      | file bytes => exact .none
      | directory inner inner' => exact ih (h.cons hentry hentry')
      | link target => exact .none

end Trail

/-! ## Following paths -/

namespace FileSystem

open Trail (Alike)

variable {root root' : List (String × Entry)} {followLast mayCreate : Bool}

theorem alike_startOf {here here' : Trail} (h : Alike root root' here here') (target : String) :
    Alike root root' (startOf target here) (startOf target here') := by
  unfold startOf
  split
  · exact Trail.alike_nil root root'
  · exact h

theorem alike_to? (hsame : SameTree root root') (place : Place) :
    Option.Rel (Alike root root') (Trail.to? place root) (Trail.to? place root') :=
  Alike.extend? hsame place (Trail.alike_nil root root')

/-- Not following the last link gives the same as following it, or it gives a link. -/
def EndsAtLink (root : List (String × Entry)) (result result' : Except FileError Place) : Prop :=
  result = result' ∨
    ∃ place target, result = .ok place ∧ Entry.find? place root = some (.link target)

theorem walkSteps_endsAtLink
    {follow follow' : Trail → String → List String → Except FileError Place}
    (hfollow : ∀ {here : Trail}, here.Leads root → ∀ target rest,
      EndsAtLink root (follow here target rest) (follow' here target rest))
    (steps : List String) {here : Trail} (h : here.Leads root) :
    EndsAtLink root (walkSteps root false mayCreate follow here steps)
      (walkSteps root true mayCreate follow' here steps) := by
  induction steps generalizing here with
  | nil => exact Or.inl rfl
  | cons step rest ih =>
      rw [walkSteps, walkSteps]
      split
      · exact ih h
      · split
        · exact ih h.tail
        · split
          · exact Or.inl rfl
          · split
            · exact Or.inl rfl
            · cases hentry : List.lookup step (here.entries root) with
              | none => exact Or.inl rfl
              | some entry =>
                  cases entry with
                  | file bytes => exact Or.inl rfl
                  | directory inner => exact ih ⟨hentry, h⟩
                  | link target =>
                      cases rest with
                      | nil =>
                          refine Or.inr ⟨here.place ++ [step], target, rfl, ?_⟩
                          rw [h.lookup, hentry]
                      | cons next rest => exact hfollow h target (next :: rest)

theorem leads_startOf {here : Trail} (h : here.Leads root) (target : String) :
    Trail.Leads root (startOf target here) := by
  unfold startOf
  split
  · trivial
  · exact h

theorem walk_endsAtLink (links : Nat) (steps : List String) {here : Trail}
    (h : here.Leads root) :
    EndsAtLink root (walk root false mayCreate links here steps)
      (walk root true mayCreate links here steps) := by
  induction links generalizing steps here with
  | zero => exact walkSteps_endsAtLink (fun _ _ _ => Or.inl rfl) steps h
  | succ links ih =>
      refine walkSteps_endsAtLink ?_ steps h
      intro here h target rest
      exact ih _ (leads_startOf h target)

theorem leads_of_to? {place : Place} {here : Trail} (h : Trail.to? place root = some here) :
    here.Leads root := by
  have hself := alike_to? (SameTree.refl root) place
  rw [h] at hself
  cases hself with
  | some halike => exact halike.leads

theorem resolve_endsAtLink (files : FileSystem) (path : String) :
    EndsAtLink files.entries (files.resolve false mayCreate path)
      (files.resolve true mayCreate path) := by
  rw [resolve, resolve]
  split
  · exact Or.inl rfl
  · split
    · exact Or.inl rfl
    · cases hstart : Trail.to? (startOf path files.workingPlace) files.entries with
      | none => exact Or.inl rfl
      | some here => exact walk_endsAtLink maxLinks (steps path) (leads_of_to? hstart)

end FileSystem

end ScriptLint
