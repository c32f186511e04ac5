import ScriptLint.Path
import ScriptLint.Proofs.Text.Lines
import ScriptLint.Proofs.Text.Order

/-!
# The order of paths

Paths are compared by their components, so those that mean the same are not told apart, and no
others are confused.

The path of an entry in a directory has the components of the directory and the name of the entry as
one component more, however the path of the directory is spelled. Paths are ordered component by
component, so among the paths below a directory it is the name of the first entry that decides, and
what follows it does not matter: `a/x` comes before `a.b`, although a slash comes after a dot.
-/

namespace ScriptLint

/-- A component is known by what it is compared by. -/
theorem Component.key_injective : Function.Injective Component.key := by
  intro a b h
  cases a <;> cases b <;> simp_all [Component.key, String.toList_inj]

namespace Path

/-- One path comes before another, component by component. -/
def Before (a b : String) : Prop :=
  key a < key b

instance (a b : String) : Decidable (Before a b) :=
  inferInstanceAs (Decidable (key a < key b))

theorem Before.irrefl {a : String} : ¬ Before a a :=
  lt_irrefl (key a)

theorem Before.asymm {a b : String} (h : Before a b) : ¬ Before b a :=
  lt_asymm h

/-- What an entry of a directory can be called. -/
def isName (name : String) : Bool :=
  name != "" && name != "." && name != ".." && !name.toList.contains '/'

theorem isName_iff (name : String) :
    isName name = true ↔ name ≠ "" ∧ name ≠ "." ∧ name ≠ ".." ∧ '/' ∉ name.toList := by
  simp [isName, and_assoc]

theorem component?_of_isName {name : String} (h : isName name = true) :
    component? name = some (.name name) := by
  obtain ⟨hempty, hdot, hparent, -⟩ := (isName_iff name).mp h
  simp [component?, hempty, hdot, hparent]

theorem isAbsolute_of_isName {name : String} (h : isName name = true) :
    isAbsolute name = false := by
  obtain ⟨-, -, -, hslash⟩ := (isName_iff name).mp h
  rw [isAbsolute, beq_eq_false_iff_ne]
  intro hhead
  exact hslash (List.mem_of_mem_head? hhead)

/-! ## Paths that mean the same -/

theorem key_eq_iff {a b : String} : key a = key b ↔ same a b = true := by
  rw [key, key, same, beq_iff_eq, List.map_inj_right fun _ _ h => Component.key_injective h]

theorem key_ne_iff {a b : String} : key a ≠ key b ↔ same a b = false := by
  rw [Ne, key_eq_iff, Bool.not_eq_true]

theorem beq_key_eq_same (a b : String) : (key a == key b) = same a b := by
  rw [Bool.eq_iff_iff, beq_iff_eq, key_eq_iff]

/-! ## Components -/

/-- The components that the parts of a path stand for. -/
def componentsOf (absolute : Bool) : List String → List Component
  | [] => []
  | first :: rest =>
      (if absolute then [.root]
        else if first == "." then [.current]
        else (component? first).toList) ++ rest.filterMap component?

theorem components_eq (path : String) :
    components path = componentsOf (isAbsolute path) (parts path) := by
  rw [components]
  cases parts path <;> rfl

/-- A further part adds the component it stands for. -/
theorem componentsOf_append (absolute : Bool) {parts : List String} (h : parts ≠ [])
    (part : String) :
    componentsOf absolute (parts ++ [part]) =
      componentsOf absolute parts ++ (component? part).toList := by
  cases parts with
  | nil => exact absurd rfl h
  | cons first rest =>
      have hpart : [part].filterMap component? = (component? part).toList := by
        cases hcomponent : component? part <;> simp [hcomponent]
      rw [List.cons_append, componentsOf, componentsOf, List.filterMap_append, List.append_assoc,
        hpart]

theorem parts_ne_nil (path : String) : parts path ≠ [] := by
  simp [parts, cutAt_ne_nil]

/-- A part after a separator. -/
theorem parts_append_slash (path : String) {part : String} (h : '/' ∉ part.toList) :
    parts (path ++ "/" ++ part) = parts path ++ [part] := by
  have htext : (path ++ "/" ++ part).toList = path.toList ++ '/' :: part.toList := by simp
  rw [parts, htext, cutAt_append_cons, cutAt_of_notMem '/' h, List.map_append]
  simp [parts]

theorem isAbsolute_append {path : String} (h : path ≠ "") (rest : String) :
    isAbsolute (path ++ rest) = isAbsolute path := by
  have hne : path.toList ≠ [] := fun hnil => h (String.toList_eq_nil_iff.mp hnil)
  obtain ⟨c, cs, hpath⟩ := List.exists_cons_of_ne_nil hne
  simp [isAbsolute, String.toList_append, hpath]

/-- A path with a separator and a further part has the component of that part in addition. -/
theorem components_append_slash {path : String} (hpath : path ≠ "") {part : String}
    (hpart : '/' ∉ part.toList) :
    components (path ++ "/" ++ part) = components path ++ (component? part).toList := by
  have habsolute : isAbsolute (path ++ "/" ++ part) = isAbsolute path := by
    rw [String.append_assoc, isAbsolute_append hpath]
  rw [components_eq, habsolute, parts_append_slash path hpart,
    componentsOf_append _ (parts_ne_nil path), ← components_eq]

/-- A path that ends in a separator is another path and the separator. -/
theorem exists_of_getLast?_slash {path : String} (h : path.toList.getLast? = some '/') :
    ∃ shorter, path = shorter ++ "/" := by
  refine ⟨String.ofList path.toList.dropLast, ?_⟩
  have hlast := List.dropLast_append_getLast? '/' h
  apply String.toList_inj.mp
  rw [String.toList_append, String.toList_ofList]
  exact hlast.symm

theorem components_of_isName {name : String} (h : isName name = true) :
    components name = [.name name] := by
  obtain ⟨-, hdot, -, hslash⟩ := (isName_iff name).mp h
  have hparts : parts name = [name] := by
    rw [parts, cutAt_of_notMem '/' hslash]
    simp
  rw [components_eq, isAbsolute_of_isName h, hparts]
  simp [componentsOf, hdot, component?_of_isName h]

/-- A separator at the end of a path is no component. -/
theorem components_append_slash_self {path : String} (h : path ≠ "") :
    components (path ++ "/") = components path := by
  have hslash : '/' ∉ "".toList := by simp
  have hnone := components_append_slash h hslash
  rwa [String.append_empty, show component? "" = none from rfl, Option.toList_none,
    List.append_nil] at hnone

theorem components_slash_append {name : String} (h : isName name = true) :
    components ("/" ++ name) = components "/" ++ [.name name] := by
  obtain ⟨-, -, -, hslash⟩ := (isName_iff name).mp h
  have habsolute : isAbsolute ("/" ++ name) = true := by
    rw [isAbsolute_append (by decide)]
    rfl
  have hparts : parts ("/" ++ name) = [""] ++ [name] := parts_append_slash "" hslash
  rw [components_eq, habsolute, hparts, componentsOf_append _ (by simp), component?_of_isName h]
  rfl

/-- The path of an entry has the name of the entry as one component more. -/
theorem components_join (directory : String) {name : String} (h : isName name = true) :
    components (join directory name) = components directory ++ [.name name] := by
  obtain ⟨-, -, -, hslash⟩ := (isName_iff name).mp h
  have hname : (component? name).toList = [.name name] := by
    rw [component?_of_isName h]
    rfl
  rw [join, isAbsolute_of_isName h]
  by_cases hempty : directory = ""
  · subst hempty
    rw [show components "" = [] from rfl, ← components_of_isName h]
    simp
  · by_cases hlast : directory.toList.getLast? = some '/'
    · obtain ⟨shorter, rfl⟩ := exists_of_getLast?_slash hlast
      by_cases hroot : shorter = ""
      · subst hroot
        simpa using components_slash_append h
      · simp [components_append_slash hroot hslash, components_append_slash_self hroot, hname]
    · simp [hempty, hlast, components_append_slash hempty hslash, hname]

/-! ## Paths below a directory -/

/-- The path of what lies at a place below a directory. -/
def below (directory : String) (place : List String) : String :=
  place.foldl join directory

theorem below_cons (directory name : String) (place : List String) :
    below directory (name :: place) = below (join directory name) place := rfl

theorem components_below (directory : String) {place : List String}
    (h : ∀ name ∈ place, isName name = true) :
    components (below directory place) = components directory ++ place.map Component.name := by
  induction place generalizing directory with
  | nil => simp [below]
  | cons name place ih =>
      have hname := h name List.mem_cons_self
      have hplace := ih (join directory name) fun other hother =>
        h other (List.mem_cons_of_mem _ hother)
      rw [below_cons, hplace, components_join directory hname, List.map_cons, List.append_assoc]
      rfl

/-- Below different entries of a directory the names of the entries decide the order. -/
theorem before_of_lt (directory : String) {name name' : String}
    (hlt : name.toList < name'.toList) {place place' : List String}
    (h : ∀ part ∈ name :: place, isName part = true)
    (h' : ∀ part ∈ name' :: place', isName part = true) :
    Before (below directory (name :: place)) (below directory (name' :: place')) := by
  rw [Before, key, key, components_below directory h, components_below directory h',
    List.map_append, List.map_append]
  apply List.Lex.append_left
  apply List.Lex.rel
  show '\x03' :: name.toList < '\x03' :: name'.toList
  exact List.cons_lt_cons_iff.mpr (Or.inr ⟨rfl, hlt⟩)

example : Before "a/x" "a.b" ∧ ¬ "a/x".toList < "a.b".toList := by
  constructor <;> decide +kernel

/-! ## Sorted lists of paths -/

theorem nodup_of_before {paths : List String} (h : paths.Pairwise Before) : paths.Nodup := by
  refine h.imp ?_
  rintro a b hbefore rfl
  exact Before.irrefl hbefore

/-- Lists of paths in order are equal if they have the same members. -/
theorem eq_of_before {paths paths' : List String} (h : paths.Pairwise Before)
    (h' : paths'.Pairwise Before) (hmem : ∀ path, path ∈ paths ↔ path ∈ paths') :
    paths = paths' := by
  have hperm : paths.Perm paths' :=
    (List.perm_ext_iff_of_nodup (nodup_of_before h) (nodup_of_before h')).mpr hmem
  exact hperm.eq_of_pairwise (fun _ _ _ _ hab hba => absurd hba hab.asymm) h h'

end Path

end ScriptLint
