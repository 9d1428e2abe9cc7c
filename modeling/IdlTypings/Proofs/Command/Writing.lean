import IdlTypings.Proofs.Command.Delivery

/-!
# What a run writes

Writing to a path replaces one file, the one that the path leads to. Where it leads is read off the
path and the current directory: the files themselves have no say in it, so the text that is written
first does not change where the report goes.
-/

namespace IdlTypings.Command

/-! ### Paths -/

/-- Where a name leads from a directory. -/
def goTo (directory : List String) (name : String) : List String :=
  if name = "." then directory
  else if name = ".." then directory.dropLast
  else directory ++ [name]

def Place.path : Place → List String
  | .file path _ => path
  | .directory path => path
  | .absent path => path

namespace Route

/-- The names on the way and the one at the end. -/
def steps (route : Route) : List String := route.way ++ [route.last]

def located (route : Route) (here : List String) : List String :=
  route.steps.foldl goTo (if route.absolute then [] else here)

end Route

namespace FileTree

/-- Where a path leads. -/
def located (t : FileTree) (path : String) : List String :=
  (Route.names path).foldl goTo (if path.startsWith "/" then [] else t.here)

section

variable {t : FileTree}

theorem place_eq_ok {directory : List String} {name : String} {place : Place}
    (h : t.place directory name = .ok place) : place.path = goTo directory name := by
  unfold FileTree.place at h
  dsimp only at h
  rw [goTo]
  by_cases hdot : name = "."
  · rw [if_pos hdot] at h ⊢
    cases h
    rfl
  · rw [if_neg hdot] at h ⊢
    by_cases hdots : name = ".."
    · rw [if_pos hdots] at h ⊢
      cases h
      rfl
    · rw [if_neg hdots] at h ⊢
      by_cases hlong : 255 < name.utf8ByteSize
      · rw [if_pos hlong] at h
        cases h
      · rw [if_neg hlong] at h
        cases hcontent : t.content? (directory ++ [name]) with
        | some content =>
            rw [hcontent] at h
            cases h
            rfl
        | none =>
            rw [hcontent] at h
            obtain rfl := Except.ok.inj h
            split <;> rfl

theorem walk_eq_ok {names : List String} {directory reached : List String}
    (h : t.walk directory names = .ok reached) : reached = names.foldl goTo directory := by
  induction names generalizing directory with
  | nil =>
      cases h
      rfl
  | cons name rest ih =>
      obtain ⟨place, hplace, h⟩ := Idl.bind_eq_ok_iff.mp h
      obtain ⟨next, hnext, h⟩ := Idl.bind_eq_ok_iff.mp h
      have hpath : next = goTo directory name := by
        rw [← place_eq_ok hplace]
        cases place with
        | directory path =>
            cases hnext
            rfl
        | file path content => cases hnext
        | absent path => cases hnext
      rw [ih h, hpath, List.foldl_cons]

theorem located_of_parse {path : String} {route : Route} (h : Route.parse path = .ok route) :
    route.located t.here = t.located path := by
  unfold Route.parse at h
  split at h
  · cases h
  · cases h
    -- a path without names is the root or empty, and its last name stays where it is
    rcases List.eq_nil_or_concat (Route.names path) with hnames | ⟨way, last, hnames⟩
    · simp [Route.located, Route.steps, FileTree.located, hnames, goTo]
    · simp [Route.located, Route.steps, FileTree.located, hnames]

end

/-! ### Files -/

theorem content?_put_self (t : FileTree) (path : List String) (text : String) :
    (t.put path text).content? path = some text.toUTF8 := by
  rw [FileTree.content?, FileTree.put, List.lookup_cons, beq_self_eq_true]

theorem lookup_filter_of_ne {path other : List String} (hne : other ≠ path)
    (files : List (List String × ByteArray)) :
    (files.filter fun file => file.1 ≠ path).lookup other = files.lookup other := by
  induction files with
  | nil => rfl
  | cons file rest ih =>
      obtain ⟨place, content⟩ := file
      by_cases hpath : place = path
      · have hskipped : (other == place) = false := beq_false_of_ne (hpath ▸ hne)
        rw [List.filter_cons_of_neg (by simpa using hpath), ih, List.lookup_cons, hskipped]
      · rw [List.filter_cons_of_pos (by simpa using hpath), List.lookup_cons, List.lookup_cons, ih]

theorem content?_put_of_ne (t : FileTree) {path other : List String} (text : String)
    (hne : other ≠ path) : (t.put path text).content? other = t.content? other := by
  rw [FileTree.content?, FileTree.put, List.lookup_cons, beq_false_of_ne hne]
  exact lookup_filter_of_ne hne t.files

/-- Writing replaces the file that the path leads to. -/
theorem writeText_eq_ok {t written : FileTree} {path text : String}
    (h : t.writeText path text = .ok written) : written = t.put (t.located path) text := by
  obtain ⟨route, hroute, h⟩ := Idl.bind_eq_ok_iff.mp h
  obtain ⟨directory, hdirectory, h⟩ := Idl.bind_eq_ok_iff.mp h
  split at h
  · cases h
  · obtain ⟨place, hplace, h⟩ := Idl.bind_eq_ok_iff.mp h
    have hlocated : place.path = t.located path := by
      rw [← located_of_parse hroute, place_eq_ok hplace, walk_eq_ok hdirectory, Route.located,
        Route.steps, List.foldl_append, List.foldl_cons, List.foldl_nil]
    rw [← hlocated]
    cases place with
    | file path content =>
        cases h
        rfl
    | absent path =>
        cases h
        rfl
    | directory path => cases h

end FileTree

/-! ### Handing out -/

namespace Delivery

/-- Where the report goes. -/
def reportPlace (t : FileTree) (out : Option String) : List String :=
  t.located (Report.path (reportBase out))

/-- The files after a delivery was handed out: the output file and the report are as they should be,
and nothing else has changed. -/
structure Leaves (d : Delivery) (t : FileTree) (out : Option String) (finished : FileTree) :
    Prop where
  report : ∀ report, d.report = some report →
    finished.content? (reportPlace t out) = some report.toUTF8
  text : ∀ path, out = some path → d.report = none ∨ t.located path ≠ reportPlace t out →
    finished.content? (t.located path) = some d.text.toUTF8
  only : ∀ place, finished.content? place ≠ t.content? place →
    (∃ path, out = some path ∧ place = t.located path) ∨
      d.report.isSome = true ∧ place = reportPlace t out

section

variable {d : Delivery} {t written finished : FileTree} {out : Option String}

theorem eq_put_of_write {path text : String} {refusal : FileError → RunError}
    (h : (t.writeText path text).mapError refusal = .ok written) :
    written = t.put (t.located path) text := by
  cases hwrite : t.writeText path text with
  | error e =>
      rw [hwrite] at h
      cases h
  | ok next =>
      rw [hwrite] at h
      cases h
      exact FileTree.writeText_eq_ok hwrite

theorem writeOutput_eq_ok {text : String} (h : writeOutput t text out = .ok written) :
    out = none ∧ written = t ∨
      ∃ path, out = some path ∧ written = t.put (t.located path) text := by
  cases out with
  | none =>
      cases h
      exact .inl ⟨rfl, rfl⟩
  | some path => exact .inr ⟨path, rfl, eq_put_of_write h⟩

theorem writeReportText_eq_ok {base : String} {report : Option String}
    (h : writeReportText written base report = .ok finished) :
    report = none ∧ finished = written ∨
      ∃ text, report = some text ∧
        finished = written.put (written.located (Report.path base)) text := by
  cases report with
  | none =>
      cases h
      exact .inl ⟨rfl, rfl⟩
  | some text => exact .inr ⟨text, rfl, eq_put_of_write h⟩

theorem content?_output {text path : String}
    (h : writeOutput t text (some path) = .ok written) :
    written.content? (t.located path) = some text.toUTF8 := by
  obtain ⟨hout, -⟩ | ⟨_, ⟨rfl⟩, rfl⟩ := writeOutput_eq_ok h
  · cases hout
  · exact FileTree.content?_put_self ..

theorem changed_by_output {text : String} (h : writeOutput t text out = .ok written)
    {place : List String} (hchanged : written.content? place ≠ t.content? place) :
    ∃ path, out = some path ∧ place = t.located path := by
  obtain ⟨-, rfl⟩ | ⟨path, rfl, rfl⟩ := writeOutput_eq_ok h
  · exact absurd rfl hchanged
  · refine ⟨path, rfl, ?_⟩
    by_contra hne
    exact hchanged (FileTree.content?_put_of_ne t text hne)

/-- The report is found from the same directory, whatever was written before it. -/
theorem located_reportPath {text : String} (h : writeOutput t text out = .ok written) :
    written.located (Report.path (reportBase out)) = reportPlace t out := by
  obtain ⟨-, rfl⟩ | ⟨path, -, rfl⟩ := writeOutput_eq_ok h <;> rfl

theorem leaves_of_written (houtput : writeOutput t d.text out = .ok written)
    (hreport : writeReportText written (reportBase out) d.report = .ok finished) :
    d.Leaves t out finished := by
  obtain ⟨hnone, rfl⟩ | ⟨report, hsome, rfl⟩ := writeReportText_eq_ok hreport
  · refine ⟨by simp [hnone], ?_, fun place hchanged => .inl (changed_by_output houtput hchanged)⟩
    rintro path rfl -
    exact content?_output houtput
  · rw [located_reportPath houtput]
    refine ⟨?_, ?_, ?_⟩
    · intro found hfound
      rw [hsome] at hfound
      cases hfound
      exact FileTree.content?_put_self ..
    -- the report is written last, so it could take the place of the text
    · rintro path rfl (hnone | hne)
      · rw [hsome] at hnone
        cases hnone
      · rw [FileTree.content?_put_of_ne _ _ hne, content?_output houtput]
    · intro place hchanged
      by_cases hat : place = reportPlace t out
      · exact .inr ⟨by rw [hsome]; rfl, hat⟩
      · rw [FileTree.content?_put_of_ne _ _ hat] at hchanged
        exact .inl (changed_by_output houtput hchanged)

end

end Delivery

end IdlTypings.Command
