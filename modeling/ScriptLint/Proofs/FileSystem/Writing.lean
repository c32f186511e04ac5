import ScriptLint.Proofs.FileSystem.Tree

/-!
# Writing files

A path that can be written leads to a place where there is a file or nothing yet, in a directory
that exists. After writing, the file there has the new bytes, and at every other place there is what
was there before. So the path leads to the same place again, now that there is nothing to create,
and what is read there is what was written. Both facts follow a walk step by step, and the steps of
a walk that succeeds are said once, as a relation.
-/

namespace ScriptLint

namespace Entry

/-! ## Putting an entry at a place -/

theorem lookup_cons_eq (name other : String) (entry : Entry) (rest : List (String × Entry)) :
    List.lookup other ((name, entry) :: rest) =
      if other = name then some entry else List.lookup other rest := by
  rw [List.lookup_cons]
  by_cases h : other = name
  · rw [if_pos h, beq_iff_eq.mpr h]
  · rw [if_neg h, beq_eq_false_iff_ne.mpr h]

theorem lookup_put (name other : String) (entry : Entry) (entries : List (String × Entry)) :
    List.lookup other (put name entry entries) =
      if other = name then some entry else List.lookup other entries := by
  induction entries with
  | nil => rw [put, lookup_cons_eq]
  | cons first rest ih =>
      obtain ⟨old, first⟩ := first
      rw [put]
      by_cases hold : old = name
      · subst hold
        rw [if_pos rfl, lookup_cons_eq, lookup_cons_eq]
        split <;> rfl
      · rw [if_neg hold, lookup_cons_eq, lookup_cons_eq, ih]
        by_cases h : other = old
        · subst h
          rw [if_pos rfl, if_neg hold, if_pos rfl]
        · rw [if_neg h, if_neg h]

/-- The way to a directory begins in a directory. -/
theorem find?_cons_directory {name : String} {place : Place} {root inner : List (String × Entry)}
    (h : find? (name :: place) root = some (.directory inner)) :
    ∃ next, List.lookup name root = some (.directory next) ∧
      find? place next = some (.directory inner) := by
  rw [find?_cons, Option.bind_eq_some_iff] at h
  obtain ⟨entry, hentry, hbelow⟩ := h
  cases entry with
  | directory next => exact ⟨next, hentry, hbelow⟩
  | file bytes => cases place <;> cases hbelow
  | link target => cases place <;> cases hbelow

theorem place_cons {name : String} {place' : Place} (hne : place' ≠ [])
    {root next : List (String × Entry)} (hname : List.lookup name root = some (.directory next))
    (entry : Entry) :
    place (name :: place') entry root = put name (.directory (place place' entry next)) root := by
  cases place' with
  | nil => exact absurd rfl hne
  | cons first rest => rw [place, hname]

section Place

variable {parent : Place} {name : String} {root inner : List (String × Entry)}

theorem find?_place (h : find? parent root = some (.directory inner)) (entry : Entry) :
    find? (parent ++ [name]) (place (parent ++ [name]) entry root) = some entry := by
  induction parent generalizing root with
  | nil => rw [List.nil_append, find?_singleton, place, lookup_put, if_pos rfl]
  | cons first parent ih =>
      obtain ⟨next, hfirst, hnext⟩ := find?_cons_directory h
      rw [List.cons_append, place_cons (by simp) hfirst, find?_cons, lookup_put, if_pos rfl]
      exact ih hnext

/-- A file has nothing below it. -/
theorem below?_file {place : Place} (h : place ≠ []) (bytes : ByteArray) :
    below? place (.file bytes) = none := by
  cases place with
  | nil => exact absurd rfl h
  | cons name place => rfl

/-- A file that is put at a free place leaves all other places as they are. -/
theorem kind_find?_place (h : find? parent root = some (.directory inner))
    (hentry : List.lookup name inner = none ∨ ∃ old, List.lookup name inner = some (.file old))
    (bytes : ByteArray) {other : Place} (hother : other ≠ parent ++ [name]) :
    (find? other (place (parent ++ [name]) (.file bytes) root)).map kind =
      (find? other root).map kind := by
  induction parent generalizing root other with
  | nil =>
      cases h
      cases other with
      | nil => rfl
      | cons first rest =>
          rw [List.nil_append, place, find?_cons, find?_cons, lookup_put]
          by_cases hfirst : first = name
          · -- below the new file there is nothing, as before
            subst hfirst
            have hrest : rest ≠ [] := by
              rintro rfl
              exact hother rfl
            rw [if_pos rfl, Option.bind_some, below?_file hrest]
            rcases hentry with hnone | ⟨old, hold⟩
            · rw [hnone]
              rfl
            · rw [hold, Option.bind_some, below?_file hrest]
          · rw [if_neg hfirst]
  | cons next parent ih =>
      obtain ⟨inside, hnext, hinside⟩ := find?_cons_directory h
      rw [List.cons_append, place_cons (by simp) hnext]
      cases other with
      | nil => rfl
      | cons first rest =>
          rw [find?_cons, find?_cons, lookup_put]
          by_cases hfirst : first = next
          · subst hfirst
            have hrest : rest ≠ parent ++ [name] := by
              rintro rfl
              exact hother rfl
            rw [if_pos rfl, hnext]
            exact ih hinside hrest
          · rw [if_neg hfirst]

end Place

end Entry

/-! ## Walks that succeed -/

namespace FileSystem

/-- A step is looked up as a name: it moves, and no name is longer than it may be. Where a file may
be created, no directory is asked for. -/
structure IsLookedUp (mayCreate : Bool) (step : String) (rest : List String) : Prop where
  moves : ¬ (step = stay || step = ".") = true
  notUp : step ≠ ".."
  noDirectory : ¬ (mayCreate && rest == [stay]) = true
  short : ¬ maxNameSize < step.utf8ByteSize

/-- Where nothing is created, more may be asked for. -/
theorem IsLookedUp.creatingNothing {mayCreate : Bool} {step : String} {rest : List String}
    (h : IsLookedUp mayCreate step rest) : IsLookedUp false step rest :=
  ⟨h.moves, h.notUp, Bool.false_ne_true, h.short⟩

/-- The steps lead from the end of the trail to the place, through at most the given number of
links. A link at the end is followed. -/
inductive Goes (root : List (String × Entry)) (mayCreate : Bool) :
    Nat → Trail → List String → Place → Prop where
  | done {links : Nat} (here : Trail) : Goes root mayCreate links here [] here.place
  | stay {links : Nat} {here : Trail} {step : String} {rest : List String} {place : Place}
      (hstay : (step = stay || step = ".") = true)
      (hrest : Goes root mayCreate links here rest place) :
      Goes root mayCreate links here (step :: rest) place
  | up {links : Nat} {here : Trail} {rest : List String} {place : Place}
      (hrest : Goes root mayCreate links here.tail rest place) :
      Goes root mayCreate links here (".." :: rest) place
  | enter {links : Nat} {here : Trail} {step : String} {rest : List String} {place : Place}
      {inner : List (String × Entry)} (hstep : IsLookedUp mayCreate step rest)
      (hinner : List.lookup step (here.entries root) = some (.directory inner))
      (hrest : Goes root mayCreate links ((step, inner) :: here) rest place) :
      Goes root mayCreate links here (step :: rest) place
  | link {links : Nat} {here : Trail} {step target : String} {rest : List String} {place : Place}
      (hstep : IsLookedUp mayCreate step rest)
      (htarget : List.lookup step (here.entries root) = some (.link target))
      (hrest : Goes root mayCreate links (startOf target here) (steps target ++ rest) place) :
      Goes root mayCreate (links + 1) here (step :: rest) place
  | file {links : Nat} {here : Trail} {step : String} {bytes : ByteArray}
      (hstep : IsLookedUp mayCreate step [])
      (hfile : List.lookup step (here.entries root) = some (.file bytes)) :
      Goes root mayCreate links here [step] (here.place ++ [step])
  | create {links : Nat} {here : Trail} {step : String} (hcreate : mayCreate = true)
      (hstep : IsLookedUp mayCreate step [])
      (hnone : List.lookup step (here.entries root) = none) :
      Goes root mayCreate links here [step] (here.place ++ [step])

section Goes

variable {root : List (String × Entry)} {mayCreate : Bool} {links : Nat} {place : Place}

/-- How a walk goes on at a link while it may follow the given number of them. -/
def followWithin (root : List (String × Entry)) (mayCreate : Bool) :
    Nat → Trail → String → List String → Except FileError Place
  | 0, _, _, _ => .error .tooManyLinks
  | links + 1, here, target, rest =>
      walk root true mayCreate links (startOf target here) (steps target ++ rest)

theorem walk_eq_walkSteps (here : Trail) (steps : List String) :
    walk root true mayCreate links here steps =
      walkSteps root true mayCreate (followWithin root mayCreate links) here steps := by
  cases links <;> rfl

theorem walkSteps_of_isLookedUp {follow : Trail → String → List String → Except FileError Place}
    (here : Trail) {step : String} {rest : List String} (h : IsLookedUp mayCreate step rest) :
    walkSteps root true mayCreate follow here (step :: rest) =
      match List.lookup step (here.entries root) with
      | none =>
          if mayCreate && rest.isEmpty then .ok (here.place ++ [step]) else .error .notFound
      | some (.directory inner) => walkSteps root true mayCreate follow ((step, inner) :: here) rest
      | some (.file _) =>
          if rest.isEmpty then .ok (here.place ++ [step]) else .error .notDirectory
      | some (.link target) => follow here target rest := by
  rw [walkSteps, if_neg h.moves, if_neg h.notUp, if_neg h.noDirectory, if_neg h.short,
    Bool.not_true, Bool.and_false]
  rfl

theorem goes_of_walkSteps {follow : Trail → String → List String → Except FileError Place}
    (hfollow : ∀ here target rest, follow here target rest = .ok place →
      ∃ fewer, links = fewer + 1 ∧
        Goes root mayCreate fewer (startOf target here) (steps target ++ rest) place)
    {steps : List String} {here : Trail}
    (h : walkSteps root true mayCreate follow here steps = .ok place) :
    Goes root mayCreate links here steps place := by
  induction steps generalizing here with
  | nil =>
      cases h
      exact .done here
  | cons step rest ih =>
      by_cases hstay : (step = stay || step = ".") = true
      · rw [walkSteps, if_pos hstay] at h
        exact .stay hstay (ih h)
      by_cases hup : step = ".."
      · subst hup
        rw [walkSteps, if_neg hstay, if_pos rfl] at h
        exact .up (ih h)
      by_cases hdirectory : (mayCreate && rest == [stay]) = true
      · rw [walkSteps, if_neg hstay, if_neg hup, if_pos hdirectory] at h
        cases h
      by_cases hlong : maxNameSize < step.utf8ByteSize
      · rw [walkSteps, if_neg hstay, if_neg hup, if_neg hdirectory, if_pos hlong] at h
        cases h
      have hstep : IsLookedUp mayCreate step rest := ⟨hstay, hup, hdirectory, hlong⟩
      rw [walkSteps_of_isLookedUp here hstep] at h
      split at h
      · next hnone =>
          split at h
          · next hlast =>
              obtain ⟨hcreate, hrest⟩ := Bool.and_eq_true_iff.mp hlast
              cases List.isEmpty_iff.mp hrest
              cases h
              exact .create hcreate hstep hnone
          · cases h
      · next inner hinner => exact .enter hstep hinner (ih h)
      · next bytes hfile =>
          split at h
          · next hrest =>
              cases List.isEmpty_iff.mp hrest
              cases h
              exact .file hstep hfile
          · cases h
      · next target htarget =>
          obtain ⟨fewer, rfl, hrest⟩ := hfollow here target rest h
          exact .link hstep htarget hrest

theorem goes_of_walk {here : Trail} {steps : List String}
    (h : walk root true mayCreate links here steps = .ok place) :
    Goes root mayCreate links here steps place := by
  induction links generalizing here steps with
  | zero =>
      refine goes_of_walkSteps ?_ h
      intro here target rest hlink
      cases hlink
  | succ links ih =>
      refine goes_of_walkSteps ?_ h
      intro here target rest hlink
      exact ⟨links, rfl, ih hlink⟩

theorem walk_of_goes {here : Trail} {steps : List String}
    (h : Goes root mayCreate links here steps place) :
    walk root true mayCreate links here steps = .ok place := by
  induction h with
  | done here => rw [walk_eq_walkSteps, walkSteps]
  | stay hstay _ ih =>
      rw [walk_eq_walkSteps] at ih ⊢
      rw [walkSteps, if_pos hstay, ih]
  | up _ ih =>
      rw [walk_eq_walkSteps] at ih ⊢
      rw [walkSteps, if_neg (by decide), if_pos rfl, ih]
  | enter hstep hinner _ ih =>
      rw [walk_eq_walkSteps] at ih ⊢
      rw [walkSteps_of_isLookedUp _ hstep, hinner]
      exact ih
  | link hstep htarget _ ih =>
      rw [walk_eq_walkSteps, walkSteps_of_isLookedUp _ hstep, htarget]
      exact ih
  | file hstep hfile =>
      rw [walk_eq_walkSteps, walkSteps_of_isLookedUp _ hstep, hfile]
      rfl
  | create hcreate hstep hnone =>
      rw [walk_eq_walkSteps, walkSteps_of_isLookedUp _ hstep, hnone, hcreate]
      rfl

theorem walk_eq_ok_iff {here : Trail} {steps : List String} :
    walk root true mayCreate links here steps = .ok place ↔
      Goes root mayCreate links here steps place :=
  ⟨goes_of_walk, walk_of_goes⟩

end Goes

end FileSystem

/-! ## Where a path leads that can be written -/

/-- A file can stand at the place: its directory is there, and the place is free or a file's. -/
structure IsWritable (root : List (String × Entry)) (parent : Place) (name : String) : Prop where
  directory : ∃ inner, Entry.find? parent root = some (.directory inner)
  entry : Entry.find? (parent ++ [name]) root = none ∨
    ∃ bytes, Entry.find? (parent ++ [name]) root = some (.file bytes)

/-- The place is a directory, or a file can stand there. -/
def Lands (root : List (String × Entry)) (place : Place) : Prop :=
  (∃ inner, Entry.find? place root = some (.directory inner)) ∨
    ∃ parent name, place = parent ++ [name] ∧ IsWritable root parent name

namespace FileSystem

variable {root : List (String × Entry)} {mayCreate : Bool}

theorem directory_of_leads {here : Trail} (h : here.Leads root) :
    Entry.find? here.place root = some (.directory (here.entries root)) := by
  have hself := h.find? []
  rwa [List.append_nil] at hself

/-- Steps end at a directory or where a file can stand. -/
theorem Goes.lands {links : Nat} {here : Trail} {steps : List String} {place : Place}
    (hgoes : Goes root mayCreate links here steps place) (h : here.Leads root) :
    Lands root place := by
  induction hgoes with
  | done here => exact .inl ⟨_, directory_of_leads h⟩
  | stay _ _ ih => exact ih h
  | up _ ih => exact ih h.tail
  | enter _ hinner _ ih => exact ih ⟨hinner, h⟩
  | @link links here step target rest place _ _ _ ih => exact ih (leads_startOf h target)
  | @file links here step bytes _ hfile =>
      rw [← h.lookup] at hfile
      exact .inr ⟨_, _, rfl, ⟨_, directory_of_leads h⟩, .inr ⟨bytes, hfile⟩⟩
  | @create links here step _ _ hnone =>
      rw [← h.lookup] at hnone
      exact .inr ⟨_, _, rfl, ⟨_, directory_of_leads h⟩, .inl hnone⟩

theorem resolve_lands {files : FileSystem} {path : String} {place : Place}
    (hplace : files.resolve true mayCreate path = .ok place) : Lands files.entries place := by
  unfold resolve at hplace
  split at hplace
  · cases hplace
  · split at hplace
    · cases hplace
    · cases hstart : Trail.to? (startOf path files.workingPlace) files.entries with
      | none =>
          rw [hstart] at hplace
          cases hplace
      | some here =>
          rw [hstart] at hplace
          exact (walk_eq_ok_iff.mp hplace).lands (leads_of_to? hstart)

end FileSystem

/-! ## Following a path again -/

/-- The second tree is the first with a file at the place, where there was a file or nothing. -/
structure Rewritten (root root' : List (String × Entry)) (place : Place) (bytes : ByteArray) :
    Prop where
  before : Entry.find? place root = none ∨ ∃ old, Entry.find? place root = some (.file old)
  content : Entry.find? place root' = some (.file bytes)
  elsewhere : ∀ other, other ≠ place →
    (Entry.find? other root').map Entry.kind = (Entry.find? other root).map Entry.kind

theorem IsWritable.rewritten {root : List (String × Entry)} {parent : Place} {name : String}
    (h : IsWritable root parent name) (bytes : ByteArray) :
    Rewritten root (Entry.place (parent ++ [name]) (.file bytes) root) (parent ++ [name])
      bytes := by
  obtain ⟨⟨inner, hparent⟩, hentry⟩ := h
  refine ⟨hentry, Entry.find?_place hparent _, ?_⟩
  rw [Entry.find?_append hparent, Entry.find?_singleton] at hentry
  exact fun other hother => Entry.kind_find?_place hparent hentry bytes hother

namespace Rewritten

open Trail (Alike)

variable {root root' : List (String × Entry)} {place : Place} {bytes : ByteArray}

/-- Where trails to the same place end, what is no file is what it was. -/
theorem sameKind_lookup (h : Rewritten root root' place bytes) {here here' : Trail}
    (halike : Alike root root' here here') {name : String} {entry : Entry}
    (hentry : List.lookup name (here.entries root) = some entry)
    (hnoFile : ∀ old, entry ≠ .file old) :
    SameKind (some entry) (List.lookup name (here'.entries root')) := by
  rw [← halike.leads.lookup] at hentry
  rw [← hentry, ← halike.leads'.lookup, ← halike.place]
  have hother : here.place ++ [name] ≠ place := by
    rintro rfl
    rcases h.before with hnone | ⟨old, hold⟩
    · rw [hnone] at hentry
      cases hentry
    · rw [hold] at hentry
      cases hentry
      exact hnoFile old rfl
  exact sameKind_of_map_kind (h.elsewhere _ hother).symm

theorem lookup_directory (h : Rewritten root root' place bytes) {here here' : Trail}
    (halike : Alike root root' here here') {name : String} {inner : List (String × Entry)}
    (hinner : List.lookup name (here.entries root) = some (.directory inner)) :
    ∃ inner', List.lookup name (here'.entries root') = some (.directory inner') := by
  have hkind := h.sameKind_lookup halike hinner nofun
  generalize List.lookup name (here'.entries root') = entry' at hkind ⊢
  cases hkind with
  | directory inner inner' => exact ⟨inner', rfl⟩

theorem lookup_link (h : Rewritten root root' place bytes) {here here' : Trail}
    (halike : Alike root root' here here') {name target : String}
    (htarget : List.lookup name (here.entries root) = some (.link target)) :
    List.lookup name (here'.entries root') = some (.link target) := by
  have hkind := h.sameKind_lookup halike htarget nofun
  generalize List.lookup name (here'.entries root') = entry' at hkind ⊢
  cases hkind with
  | link target => rfl

/-- The file that was written is there. -/
theorem lookup_place {here here' : Trail} {name : String}
    (h : Rewritten root root' (here.place ++ [name]) bytes)
    (halike : Alike root root' here here') :
    List.lookup name (here'.entries root') = some (.file bytes) := by
  rw [← halike.leads'.lookup, ← halike.place]
  exact h.content

/-- Steps that lead to the place lead there again, and nothing has to be created. -/
theorem goes {links : Nat} {here : Trail} {steps : List String}
    (hgoes : FileSystem.Goes root true links here steps place)
    (h : Rewritten root root' place bytes) {here' : Trail} (halike : Alike root root' here here') :
    FileSystem.Goes root' false links here' steps place := by
  induction hgoes generalizing here' with
  | done here =>
      rw [halike.place]
      exact .done here'
  | stay hstay _ ih => exact .stay hstay (ih h halike)
  | up _ ih => exact .up (ih h halike.tail)
  | enter hstep hinner _ ih =>
      obtain ⟨inner', hinner'⟩ := h.lookup_directory halike hinner
      exact .enter hstep.creatingNothing hinner' (ih h (halike.cons hinner hinner'))
  | @link links here step target rest place hstep htarget _ ih =>
      exact .link hstep.creatingNothing (h.lookup_link halike htarget)
        (ih h (FileSystem.alike_startOf halike target))
  | @file links here step old hstep hfile =>
      rw [halike.place]
      exact .file hstep.creatingNothing (h.lookup_place halike)
  | @create links here step _ hstep _ =>
      rw [halike.place]
      exact .file hstep.creatingNothing (h.lookup_place halike)

/-- A trail that goes on to a directory goes on to it in the second tree. -/
theorem extend? (h : Rewritten root root' place bytes) (way : Place) {here here' : Trail}
    (halike : Alike root root' here here') {there : Trail}
    (hthere : here.extend? way (here.entries root) = some there) :
    ∃ there', here'.extend? way (here'.entries root') = some there' ∧
      Alike root root' there there' := by
  induction way generalizing here here' with
  | nil =>
      cases hthere
      exact ⟨here', rfl, halike⟩
  | cons name way ih =>
      rw [Trail.extend?] at hthere
      split at hthere
      · next inner hinner =>
          obtain ⟨inner', hinner'⟩ := h.lookup_directory halike hinner
          obtain ⟨there', hthere', halike'⟩ := ih (halike.cons hinner hinner') hthere
          refine ⟨there', ?_, halike'⟩
          rw [Trail.extend?, hinner']
          exact hthere'
      · cases hthere

/-- A path that leads to the place leads there again. -/
theorem resolve {files : FileSystem} (h : Rewritten files.entries root' place bytes)
    {path : String} (hplace : files.resolve true true path = .ok place) :
    FileSystem.resolve { files with entries := root' } true false path = .ok place := by
  unfold FileSystem.resolve at hplace ⊢
  split at hplace
  · cases hplace
  · next hempty =>
      rw [if_neg hempty]
      split at hplace
      · cases hplace
      · next hlong =>
          rw [if_neg hlong]
          cases hstart : Trail.to? (FileSystem.startOf path files.workingPlace) files.entries with
          | none =>
              rw [hstart] at hplace
              cases hplace
          | some here =>
              rw [hstart] at hplace
              obtain ⟨here', hstart', halike⟩ :=
                h.extend? _ (Trail.alike_nil files.entries root') hstart
              have hto : Trail.to? (FileSystem.startOf path files.workingPlace) root' =
                some here' := hstart'
              have hworking : FileSystem.workingPlace { files with entries := root' } =
                files.workingPlace := rfl
              rw [hworking]
              dsimp only
              rw [hto]
              rw [FileSystem.walk_eq_ok_iff] at hplace ⊢
              exact goes hplace h halike

end Rewritten

/-! ## Writing -/

/-- One file has been written and nothing else has changed. -/
structure FileSystem.Wrote (files : FileSystem) (path : String) (bytes : ByteArray)
    (written : FileSystem) : Prop where
  content : written.entryAt true path = .ok (.file bytes)
  elsewhere : ∀ place, files.resolve true true path ≠ .ok place →
    (Entry.find? place written.entries).map Entry.kind =
      (Entry.find? place files.entries).map Entry.kind
  workingDir : written.workingDir = files.workingDir
  homeDir : written.homeDir = files.homeDir
  limit : written.limit = files.limit

namespace FileSystem

/-- A file can be opened at the place that the path leads to: there is a file or nothing yet. -/
structure OpensAt (files : FileSystem) (path : String) (place : Place) : Prop where
  leads : files.resolve true true path = .ok place
  noDirectory : ∀ inner, Entry.find? place files.entries ≠ some (.directory inner)

/-- A file can be opened for writing under the path. -/
def CanOpen (files : FileSystem) (path : String) : Prop :=
  ∃ place, files.OpensAt path place

/-- A file can be opened under the path, and of the bytes it takes only the given first part. -/
def TakesPart (files : FileSystem) (path : String) (bytes part : ByteArray) : Prop :=
  ∃ place limit, files.OpensAt path place ∧ files.limit place = some limit ∧
    limit.size < bytes.size ∧ part = bytes.extract 0 limit.size

/-- Whatever a file under the path is given, it takes. -/
def HasRoom (files : FileSystem) (path : String) : Prop :=
  ∀ place, files.resolve true true path = .ok place → files.limit place = none

/-- How a write can end. -/
inductive WriteEnds (files : FileSystem) (path : String) (bytes : ByteArray) :
    Except FailedWrite FileSystem → Prop where
  /-- The file cannot be opened, so nothing has changed. -/
  | refused (error : FileError) (hclosed : ¬ files.CanOpen path) :
      WriteEnds files path bytes (.error { error, files })
  /-- The file was opened, and a part of the bytes has taken the place of what it held. -/
  | cutShort {part : ByteArray} {left : FileSystem} (error : FileError)
      (hpart : files.TakesPart path bytes part) (hwrote : files.Wrote path part left) :
      WriteEnds files path bytes (.error { error, files := left })
  | complete {written : FileSystem} (hopen : files.CanOpen path)
      (hall : ∀ part, ¬ files.TakesPart path bytes part)
      (hwrote : files.Wrote path bytes written) : WriteEnds files path bytes (.ok written)

variable {files : FileSystem} {path : String} {bytes : ByteArray} {place : Place}

theorem OpensAt.eq {other : Place} (h : files.OpensAt path place)
    (hother : files.OpensAt path other) : place = other :=
  Except.ok.inj (h.leads.symm.trans hother.leads)

theorem TakesPart.canOpen {part : ByteArray} (h : files.TakesPart path bytes part) :
    files.CanOpen path := by
  obtain ⟨place, -, hopen, -⟩ := h
  exact ⟨place, hopen⟩

/-- There is one part that a file takes. -/
theorem TakesPart.eq {part other : ByteArray} (h : files.TakesPart path bytes part)
    (hother : files.TakesPart path bytes other) : part = other := by
  obtain ⟨place, limit, hopen, hlimit, -, rfl⟩ := h
  obtain ⟨place', limit', hopen', hlimit', -, rfl⟩ := hother
  obtain rfl := hopen.eq hopen'
  rw [hlimit] at hlimit'
  cases hlimit'
  rfl

/-- What is written is read back, and it is all that has changed. -/
theorem OpensAt.wrote (h : files.OpensAt path place) (bytes : ByteArray) :
    files.Wrote path bytes (files.withFile place bytes) := by
  rcases resolve_lands h.leads with ⟨inner, hdirectory⟩ | ⟨parent, name, rfl, hwritable⟩
  · exact absurd hdirectory (h.noDirectory inner)
  · have hrewritten := hwritable.rewritten bytes
    refine ⟨?_, ?_, rfl, rfl, rfl⟩
    · rw [withFile, entryAt, hrewritten.resolve h.leads]
      simp only [hrewritten.content]
    · intro other hother
      rw [h.leads] at hother
      exact hrewritten.elsewhere other fun heq => hother (congrArg Except.ok heq.symm)

/-- A file that is opened takes all bytes or a part of them. -/
theorem OpensAt.writeBytes (h : files.OpensAt path place) (bytes : ByteArray) :
    files.writeBytes path bytes =
      match files.limit place with
      | none => .ok (files.withFile place bytes)
      | some limit =>
          if limit.size < bytes.size then
            .error
              { error := limit.error
                files := files.withFile place (bytes.extract 0 limit.size) }
          else .ok (files.withFile place bytes) := by
  rw [FileSystem.writeBytes, h.leads]
  dsimp only
  split
  · next inner hdirectory => exact absurd hdirectory (h.noDirectory inner)
  · rfl

theorem writeBytes_of_not_canOpen (h : ¬ files.CanOpen path) (bytes : ByteArray) :
    ∃ error, files.writeBytes path bytes = .error { error, files } := by
  unfold writeBytes
  split
  · exact ⟨_, rfl⟩
  · next place hplace =>
      split
      · exact ⟨_, rfl⟩
      · next hfree => exact absurd ⟨place, hplace, hfree⟩ h

/-- Every write ends in one of the three ways. -/
theorem writeEnds (files : FileSystem) (path : String) (bytes : ByteArray) :
    files.WriteEnds path bytes (files.writeBytes path bytes) := by
  by_cases hcan : files.CanOpen path
  · obtain ⟨place, hopen⟩ := hcan
    rw [hopen.writeBytes]
    cases hlimit : files.limit place with
    | none =>
        refine .complete ⟨place, hopen⟩ ?_ (hopen.wrote bytes)
        rintro part ⟨place', limit, hopen', hlimit', -, -⟩
        rw [← hopen.eq hopen', hlimit] at hlimit'
        cases hlimit'
    | some limit =>
        dsimp only
        split
        · next hless =>
            exact .cutShort limit.error ⟨place, limit, hopen, hlimit, hless, rfl⟩ (hopen.wrote _)
        · next hfits =>
            refine .complete ⟨place, hopen⟩ ?_ (hopen.wrote bytes)
            rintro part ⟨place', limit', hopen', hlimit', hless, -⟩
            rw [← hopen.eq hopen', hlimit] at hlimit'
            cases hlimit'
            exact hfits hless
  · obtain ⟨error, herror⟩ := writeBytes_of_not_canOpen hcan bytes
    rw [herror]
    exact .refused error hcan

end FileSystem

end ScriptLint
