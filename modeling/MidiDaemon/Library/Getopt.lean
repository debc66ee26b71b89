import Mathlib.Data.List.TakeWhile

/-!
# Option parsers

`getopt_long` goes through the arguments of a program and returns one option after the other. Short
options stand behind one dash, several in one argument, the last of them with its own argument if it
takes one; a long option stands behind two, with its argument behind an equals sign or in the next
place, and may be cut to a beginning that no other long option has. Arguments of neither kind are
passed over, and two dashes end the options.

An `Argument` is a way to spell options, and `render` writes it. Reading what was written gives the
options back (`getopt_render`), and whatever is read without an error was written (`getopt_exact`).
-/

namespace Getopt

/-- A dash. -/
def dash : UInt8 := 45

/-- An equals sign. -/
def equalsSign : UInt8 := 61

/-- A long option. -/
structure Long where
  /-- Its name. -/
  name : List UInt8
  /-- It takes an argument. -/
  takesArgument : Bool
  /-- What is returned for it. -/
  val : UInt8
deriving DecidableEq, Repr

/-- The options of a program. -/
structure Spec where
  /-- The short options, and whether they take an argument. -/
  shorts : List (UInt8 × Bool)
  /-- The long options. -/
  longs : List Long
  /-- A dash is no short option. -/
  undashed : ∀ short ∈ shorts, short.1 ≠ dash

/-- What is returned once: an option with its argument, or an error. -/
inductive Found where
  /-- An option. -/
  | option (val : UInt8) (optarg : Option (List UInt8))
  /-- An option that is not known, or has an argument too many or too few. -/
  | unknown
deriving DecidableEq, Repr

namespace Spec

variable (spec : Spec)

/-- Whether a short option takes an argument, if there is one of this name. -/
def short (name : UInt8) : Option Bool :=
  (spec.shorts.find? fun short => short.1 = name).map Prod.snd

/-- The long option of this name, or the one whose name begins so; several that differ in nothing
but their names count as one. -/
def long (name : List UInt8) : Option Long :=
  match spec.longs.find? fun long => long.name = name with
  | some long => some long
  | none =>
    match spec.longs.filter fun long => name <+: long.name with
    | [] => none
    | first :: others =>
      if ∀ other ∈ others, other.takesArgument = first.takesArgument ∧ other.val = first.val then
        some first
      else none

/-- Short options in one argument, and the last of them if its own argument is in the next place. -/
def cluster : List UInt8 → List Found × Option UInt8
  | [] => ([], none)
  | name :: more =>
    match spec.short name with
    | none => (.unknown :: (cluster more).1, (cluster more).2)
    | some false => (.option name none :: (cluster more).1, (cluster more).2)
    | some true => if more = [] then ([], some name) else ([.option name (some more)], none)

/-- A long option, or its value if its argument is in the next place. -/
def longOption (text : List UInt8) : List Found × Option UInt8 :=
  let name := text.takeWhile (· ≠ equalsSign)
  match spec.long name with
  | none => ([.unknown], none)
  | some long =>
    if equalsSign ∈ text then
      if long.takesArgument then ([.option long.val (some (text.drop (name.length + 1)))], none)
      else ([.unknown], none)
    else if long.takesArgument then ([], some long.val)
    else ([.option long.val none], none)

/-- What an argument says; nothing when it holds no options. -/
def element : List UInt8 → Option (List Found × Option UInt8)
  | first :: second :: rest =>
    if first = dash then
      if second = dash then some (spec.longOption rest) else some (spec.cluster (second :: rest))
    else none
  | _ => none

/-- `getopt_long`, called until it returns `-1`. -/
def getopt : List (List UInt8) → List Found
  | [] => []
  | argument :: rest =>
    if argument = [dash, dash] then []
    else
      match spec.element argument with
      | none => getopt rest
      | some (found, none) => found ++ getopt rest
      | some (found, some val) =>
        found ++
          match rest with
          | [] => [.unknown]
          | value :: later => .option val (some value) :: getopt later

/-! ## Spellings -/

/-- This is a short option without an argument. -/
def Flag (name : UInt8) : Prop := spec.short name = some false

end Spec

/-- A way to spell options in arguments of a program. -/
inductive Argument where
  /-- No option. -/
  | operand (text : List UInt8)
  /-- Short options without arguments. -/
  | flags (names : List UInt8)
  /-- Short options, and one with its argument behind it. -/
  | joined (names : List UInt8) (name : UInt8) (value : List UInt8)
  /-- Short options, and one with its argument in the next place. -/
  | separate (names : List UInt8) (name : UInt8) (value : List UInt8)
  /-- A long option without an argument. -/
  | long (name : List UInt8)
  /-- A long option with its argument behind an equals sign. -/
  | longJoined (name value : List UInt8)
  /-- A long option with its argument in the next place. -/
  | longSeparate (name value : List UInt8)
deriving DecidableEq, Repr

namespace Argument

/-- The arguments of the program. -/
def render : Argument → List (List UInt8)
  | operand text => [text]
  | flags names => [dash :: names]
  | joined names name value => [dash :: (names ++ name :: value)]
  | separate names name value => [dash :: (names ++ [name]), value]
  | long name => [dash :: dash :: name]
  | longJoined name value => [dash :: dash :: (name ++ equalsSign :: value)]
  | longSeparate name value => [dash :: dash :: name, value]

/-- The options that are spelled. -/
def options (spec : Spec) : Argument → List Found
  | operand _ => []
  | flags names => names.map fun name => .option name none
  | joined names name value | separate names name value =>
    (names.map fun name => .option name none) ++ [.option name (some value)]
  | long name => (spec.long name).toList.map fun long => .option long.val none
  | longJoined name value | longSeparate name value =>
    (spec.long name).toList.map fun long => .option long.val (some value)

/-- The options exist, and have an argument exactly if they take one. -/
def Valid (spec : Spec) : Argument → Prop
  | operand text => ∀ second rest, text ≠ dash :: second :: rest
  | flags names => names ≠ [] ∧ ∀ name ∈ names, spec.Flag name
  | joined names name value =>
    (∀ name ∈ names, spec.Flag name) ∧ spec.short name = some true ∧ value ≠ []
  | separate names name _ => (∀ name ∈ names, spec.Flag name) ∧ spec.short name = some true
  | long name =>
    name ≠ [] ∧ equalsSign ∉ name ∧ ∃ long, spec.long name = some long ∧ long.takesArgument = false
  | longJoined name _ =>
    equalsSign ∉ name ∧ ∃ long, spec.long name = some long ∧ long.takesArgument = true
  | longSeparate name _ =>
    name ≠ [] ∧ equalsSign ∉ name ∧ ∃ long, spec.long name = some long ∧ long.takesArgument = true

end Argument

/-! ## What is written is read -/

variable {spec : Spec}

/-- A dash is not known. -/
theorem Spec.short_dash (spec : Spec) : spec.short dash = none := by
  have absent : (spec.shorts.find? fun short => short.1 = dash) = none := by
    rw [List.find?_eq_none]
    intro short member
    simpa using spec.undashed short member
  rw [Spec.short, absent]
  rfl

/-- A short option is not a dash. -/
theorem known_undashed {name : UInt8} {takesArgument : Bool}
    (known : spec.short name = some takesArgument) : name ≠ dash := by
  rintro rfl
  rw [spec.short_dash] at known
  cases known

/-- Options without arguments in front of others. -/
theorem cluster_flags {names : List UInt8} (flags : ∀ name ∈ names, spec.Flag name)
    (more : List UInt8) :
    spec.cluster (names ++ more) =
      ((names.map fun name => .option name none) ++ (spec.cluster more).1,
        (spec.cluster more).2) := by
  induction names with
  | nil => rfl
  | cons name names ih =>
    have flag : spec.short name = some false := flags name List.mem_cons_self
    have later := ih fun other member => flags other (List.mem_cons_of_mem _ member)
    rw [List.cons_append, Spec.cluster, flag]
    simp only [later, List.map_cons, List.cons_append]

/-- An option that takes an argument ends its cluster. -/
theorem cluster_last {name : UInt8} (takes : spec.short name = some true) (value : List UInt8) :
    spec.cluster (name :: value) =
      if value = [] then ([], some name) else ([.option name (some value)], none) := by
  rw [Spec.cluster, takes]

/-- The name of a long option ends in front of the equals sign. -/
theorem takeWhile_name {name : List UInt8} (plain : equalsSign ∉ name) (value : List UInt8) :
    (name ++ equalsSign :: value).takeWhile (· ≠ equalsSign) = name := by
  rw [List.takeWhile_append_of_pos]
  · simp
  · intro byte member
    simpa using ne_of_mem_of_not_mem member plain

/-- A name without a value. -/
theorem takeWhile_alone {name : List UInt8} (plain : equalsSign ∉ name) :
    name.takeWhile (· ≠ equalsSign) = name := by
  rw [List.takeWhile_eq_self_iff]
  intro byte member
  simpa using ne_of_mem_of_not_mem member plain

/-- An argument that says all of its options. -/
theorem getopt_found {argument : List UInt8} {found : List Found} (going : argument ≠ [dash, dash])
    (told : spec.element argument = some (found, none)) (rest : List (List UInt8)) :
    spec.getopt (argument :: rest) = found ++ spec.getopt rest := by
  rw [Spec.getopt, if_neg going, told]

/-- An argument whose last option has its own in the next place. -/
theorem getopt_awaiting {argument : List UInt8} {found : List Found} {val : UInt8}
    (going : argument ≠ [dash, dash]) (told : spec.element argument = some (found, some val))
    (value : List UInt8) (rest : List (List UInt8)) :
    spec.getopt (argument :: value :: rest) =
      found ++ .option val (some value) :: spec.getopt rest := by
  rw [Spec.getopt, if_neg going, told]

/-- An argument with an error in it is read as an error. -/
theorem getopt_unknown {argument : List UInt8} {found : List Found} {awaited : Option UInt8}
    (going : argument ≠ [dash, dash]) (told : spec.element argument = some (found, awaited))
    (error : Found.unknown ∈ found) (rest : List (List UInt8)) :
    Found.unknown ∈ spec.getopt (argument :: rest) := by
  rw [Spec.getopt.eq_def]
  simp only [if_neg going, told]
  cases awaited with
  | none => exact List.mem_append_left _ error
  | some val => exact List.mem_append_left _ error

/-- Short options are read as a cluster. -/
theorem element_cluster (spec : Spec) {name : UInt8} (undashed : name ≠ dash) (more : List UInt8) :
    dash :: name :: more ≠ [dash, dash] ∧
      spec.element (dash :: name :: more) = some (spec.cluster (name :: more)) := by
  constructor
  · intro same
    exact undashed (List.cons.inj (List.cons.inj same).2).1
  · rw [Spec.element, if_pos rfl, if_neg undashed]

/-- Short options with one more behind them that is known. -/
theorem element_names {names : List UInt8} (flags : ∀ name ∈ names, spec.Flag name) {name : UInt8}
    {takesArgument : Bool} (known : spec.short name = some takesArgument) (value : List UInt8) :
    dash :: (names ++ name :: value) ≠ [dash, dash] ∧
      spec.element (dash :: (names ++ name :: value)) =
        some (spec.cluster (names ++ name :: value)) := by
  cases names with
  | nil => exact element_cluster spec (known_undashed known) value
  | cons first names =>
    have undashed := known_undashed (flags first List.mem_cons_self)
    exact element_cluster spec undashed (names ++ name :: value)

/-- A text behind two dashes is read as a long option. -/
theorem element_long (spec : Spec) {text : List UInt8} (some_text : text ≠ []) :
    dash :: dash :: text ≠ [dash, dash] ∧
      spec.element (dash :: dash :: text) = some (spec.longOption text) := by
  constructor
  · intro same
    exact some_text (List.cons.inj (List.cons.inj same).2).2
  · rw [Spec.element, if_pos rfl, if_pos rfl]

/-- A name that no long option has. -/
theorem longOption_unknown {text : List UInt8}
    (unknown : spec.long (text.takeWhile (· ≠ equalsSign)) = none) :
    spec.longOption text = ([.unknown], none) := by
  simp only [Spec.longOption, unknown]

/-- A long option without an equals sign. -/
theorem longOption_alone {name : List UInt8} (plain : equalsSign ∉ name) {long : Long}
    (known : spec.long name = some long) :
    spec.longOption name =
      if long.takesArgument then ([], some long.val) else ([.option long.val none], none) := by
  simp only [Spec.longOption, takeWhile_alone plain, known, if_neg plain]

/-- A long option with one. -/
theorem longOption_value {name : List UInt8} (plain : equalsSign ∉ name) {long : Long}
    (known : spec.long name = some long) (value : List UInt8) :
    spec.longOption (name ++ equalsSign :: value) =
      if long.takesArgument then ([.option long.val (some value)], none)
      else ([.unknown], none) := by
  have sign : equalsSign ∈ name ++ equalsSign :: value := by simp
  have behind : (name ++ equalsSign :: value).drop (name.length + 1) = value := by simp
  simp only [Spec.longOption, takeWhile_name plain, known, if_pos sign, behind]

/-- An argument that was written is read. -/
theorem getopt_render {argument : Argument} (valid : argument.Valid spec)
    (rest : List (List UInt8)) :
    spec.getopt (argument.render ++ rest) = argument.options spec ++ spec.getopt rest := by
  cases argument with
  | operand text =>
    have going : text ≠ [dash, dash] := valid dash []
    have passed : spec.element text = none := by
      match text, valid with
      | [], _ => rfl
      | [_], _ => rfl
      | first :: second :: more, valid =>
        have undashed : first ≠ dash := by
          rintro rfl
          exact valid second more rfl
        rw [Spec.element, if_neg undashed]
    rw [Argument.render, List.singleton_append, Spec.getopt, if_neg going, passed]
    rfl
  | flags names =>
    obtain ⟨some_name, flags⟩ := valid
    obtain ⟨first, more, rfl⟩ := List.exists_cons_of_ne_nil some_name
    have undashed : first ≠ dash := known_undashed (flags first List.mem_cons_self)
    obtain ⟨going, told⟩ := element_cluster spec undashed more
    rw [← List.append_nil (first :: more), cluster_flags flags, Spec.cluster, List.append_nil,
      List.append_nil] at told
    rw [Argument.render, List.singleton_append, getopt_found going told]
    rfl
  | joined names name value =>
    obtain ⟨flags, takes, some_value⟩ := valid
    obtain ⟨going, told⟩ := element_names flags takes value
    rw [cluster_flags flags, cluster_last takes, if_neg some_value] at told
    rw [Argument.render, List.singleton_append, getopt_found going told]
    rfl
  | separate names name value =>
    obtain ⟨flags, takes⟩ := valid
    obtain ⟨going, told⟩ := element_names flags takes []
    rw [cluster_flags flags, cluster_last takes, if_pos rfl, List.append_nil] at told
    rw [Argument.render, List.cons_append, List.singleton_append, getopt_awaiting going told,
      Argument.options, List.append_assoc]
    rfl
  | long name =>
    obtain ⟨some_name, plain, long, known, bare⟩ := valid
    obtain ⟨going, told⟩ := element_long spec some_name
    rw [longOption_alone plain known, bare] at told
    rw [Argument.render, List.singleton_append, getopt_found going told, Argument.options, known]
    rfl
  | longJoined name value =>
    obtain ⟨plain, long, known, takes⟩ := valid
    have some_text : name ++ equalsSign :: value ≠ [] := by simp
    obtain ⟨going, told⟩ := element_long spec some_text
    rw [longOption_value plain known, takes] at told
    rw [Argument.render, List.singleton_append, getopt_found going told, Argument.options, known]
    rfl
  | longSeparate name value =>
    obtain ⟨some_name, plain, long, known, takes⟩ := valid
    obtain ⟨going, told⟩ := element_long spec some_name
    rw [longOption_alone plain known, takes] at told
    rw [Argument.render, List.cons_append, List.singleton_append, getopt_awaiting going told,
      Argument.options, known]
    rfl

/-- Arguments that were written are read, in front of whatever stands behind them. -/
theorem getopt_renders {arguments : List Argument}
    (valid : ∀ argument ∈ arguments, argument.Valid spec) (rest : List (List UInt8)) :
    spec.getopt (arguments.flatMap Argument.render ++ rest) =
      arguments.flatMap (Argument.options spec) ++ spec.getopt rest := by
  induction arguments with
  | nil => rfl
  | cons argument arguments ih =>
    have later := ih fun other member => valid other (List.mem_cons_of_mem _ member)
    rw [List.flatMap_cons, List.append_assoc, getopt_render (valid argument List.mem_cons_self),
      later, List.flatMap_cons, List.append_assoc]

/-- What is written has no errors. -/
theorem options_known (argument : Argument) : Found.unknown ∉ argument.options spec := by
  cases argument <;> simp [Argument.options]

/-! ## What is read was written -/

/-- Short options without an error: the ones without an argument, and perhaps one with it. -/
theorem cluster_written {text : List UInt8} (known : Found.unknown ∉ (spec.cluster text).1) :
    (∀ name ∈ text, spec.Flag name) ∨
      ∃ names name value, text = names ++ name :: value ∧ (∀ name ∈ names, spec.Flag name) ∧
        spec.short name = some true := by
  induction text with
  | nil => exact .inl fun name member => absurd member List.not_mem_nil
  | cons first more ih =>
    rw [Spec.cluster] at known
    cases takes : spec.short first with
    | none => simp [takes] at known
    | some takesArgument =>
      cases takesArgument with
      | true =>
        exact .inr ⟨[], first, more, rfl, fun name member => absurd member List.not_mem_nil, takes⟩
      | false =>
        simp only [takes, List.mem_cons, reduceCtorEq, false_or] at known
        rcases ih known with flags | ⟨names, name, value, rfl, flags, last⟩
        · exact .inl (List.forall_mem_cons.mpr ⟨takes, flags⟩)
        · exact .inr ⟨first :: names, name, value, rfl,
            List.forall_mem_cons.mpr ⟨takes, flags⟩, last⟩

/-- A text is a name, or a name and a value. -/
theorem text_named (text : List UInt8) :
    equalsSign ∉ text ∨ ∃ name value, equalsSign ∉ name ∧ text = name ++ equalsSign :: value := by
  by_cases sign : equalsSign ∈ text
  · obtain ⟨name, value, rfl, plain⟩ := List.eq_append_cons_of_mem sign
    exact .inr ⟨name, value, plain, rfl⟩
  · exact .inl sign

/-- An argument that is written alone, or in front of any value when one is awaited. -/
def Spelled (spec : Spec) (argument : List UInt8) : Option UInt8 → Prop
  | none => ∃ spelling : Argument, spelling.Valid spec ∧ spelling.render = [argument]
  | some _ =>
    ∀ value, ∃ spelling : Argument, spelling.Valid spec ∧ spelling.render = [argument, value]

/-- Short options without an error are written. -/
theorem cluster_spelled (spec : Spec) {text : List UInt8} (some_text : text ≠ [])
    (known : Found.unknown ∉ (spec.cluster text).1) :
    Spelled spec (dash :: text) (spec.cluster text).2 := by
  rcases cluster_written known with flags | ⟨names, name, value, rfl, flags, takes⟩
  · have read := cluster_flags flags []
    rw [List.append_nil] at read
    rw [read]
    exact ⟨.flags text, ⟨some_text, flags⟩, rfl⟩
  · rw [cluster_flags flags, cluster_last takes]
    by_cases alone : value = []
    · rw [if_pos alone, alone]
      exact fun value => ⟨.separate names name value, ⟨flags, takes⟩, rfl⟩
    · rw [if_neg alone]
      exact ⟨.joined names name value, ⟨flags, takes, alone⟩, rfl⟩

/-- A long option without an error is written. -/
theorem longOption_spelled (spec : Spec) {text : List UInt8} (some_text : text ≠ [])
    (known : Found.unknown ∉ (spec.longOption text).1) :
    Spelled spec (dash :: dash :: text) (spec.longOption text).2 := by
  rcases text_named text with plain | ⟨name, value, plain, rfl⟩
  · cases found : spec.long text with
    | none =>
      rw [longOption_unknown (by rwa [takeWhile_alone plain])] at known
      exact absurd List.mem_cons_self known
    | some long =>
      rw [longOption_alone plain found]
      cases takes : long.takesArgument with
      | false => exact ⟨.long text, ⟨some_text, plain, long, found, takes⟩, rfl⟩
      | true =>
        exact fun value => ⟨.longSeparate text value, ⟨some_text, plain, long, found, takes⟩, rfl⟩
  · cases found : spec.long name with
    | none =>
      rw [longOption_unknown (by rwa [takeWhile_name plain])] at known
      exact absurd List.mem_cons_self known
    | some long =>
      rw [longOption_value plain found] at known ⊢
      cases takes : long.takesArgument with
      | false => simp [takes] at known
      | true => exact ⟨.longJoined name value, ⟨plain, long, found, takes⟩, rfl⟩

/-- What an argument says without an error is written. -/
theorem element_spelled {argument : List UInt8} {found : List Found} {awaited : Option UInt8}
    (going : argument ≠ [dash, dash]) (told : spec.element argument = some (found, awaited))
    (known : Found.unknown ∉ found) : Spelled spec argument awaited := by
  match argument with
  | [] => cases told
  | [_] => cases told
  | first :: second :: rest =>
    rw [Spec.element] at told
    split at told
    next dashed =>
      subst dashed
      split at told
      next twice =>
        subst twice
        have some_text : rest ≠ [] := by
          rintro rfl
          exact going rfl
        have read : spec.longOption rest = (found, awaited) := Option.some.inj told
        have spelled := longOption_spelled spec some_text (by rwa [read])
        rwa [read] at spelled
      next =>
        have read : spec.cluster (second :: rest) = (found, awaited) := Option.some.inj told
        have spelled := cluster_spelled spec (List.cons_ne_nil second rest) (by rwa [read])
        rwa [read] at spelled
    next => cases told

/-- An argument that says nothing is no option. -/
theorem element_operand {argument : List UInt8} (told : spec.element argument = none) :
    (Argument.operand argument).Valid spec := by
  rintro second rest rfl
  rw [Spec.element, if_pos rfl] at told
  split at told <;> cases told

/-- The arguments are spelled up to two dashes. -/
def Written (spec : Spec) (argv : List (List UInt8)) (arguments : List Argument) : Prop :=
  (∀ argument ∈ arguments, argument.Valid spec) ∧
    ∃ tail, (tail = [] ∨ ∃ rest, tail = [dash, dash] :: rest) ∧
      argv = arguments.flatMap Argument.render ++ tail

/-- One more argument in front. -/
theorem Written.cons {argument : Argument} {arguments : List Argument} {argv : List (List UInt8)}
    (valid : argument.Valid spec) (written : Written spec argv arguments) :
    Written spec (argument.render ++ argv) (argument :: arguments) := by
  obtain ⟨others, tail, ends, rfl⟩ := written
  refine ⟨List.forall_mem_cons.mpr ⟨valid, others⟩, tail, ends, ?_⟩
  rw [List.flatMap_cons, List.append_assoc]

/-- What is written is read. -/
theorem Written.read {arguments : List Argument} {argv : List (List UInt8)}
    (written : Written spec argv arguments) :
    spec.getopt argv = arguments.flatMap (Argument.options spec) := by
  obtain ⟨valid, tail, ends, rfl⟩ := written
  have nothing : spec.getopt tail = [] := by
    rcases ends with rfl | ⟨rest, rfl⟩
    · rfl
    · rw [Spec.getopt, if_pos rfl]
  rw [getopt_renders valid, nothing, List.append_nil]

/-- What is read without an error was written. -/
theorem getopt_exact {argv : List (List UInt8)} :
    Found.unknown ∉ spec.getopt argv ↔ ∃ arguments, Written spec argv arguments := by
  constructor
  · intro known
    induction argv using Spec.getopt.induct spec with
    | case1 => exact ⟨[], fun argument member => absurd member List.not_mem_nil, [], .inl rfl, rfl⟩
    | case2 rest =>
      exact ⟨[], fun argument member => absurd member List.not_mem_nil, _, .inr ⟨rest, rfl⟩, rfl⟩
    | case3 argument rest going told ih =>
      rw [Spec.getopt, if_neg going, told] at known
      obtain ⟨arguments, written⟩ := ih known
      exact ⟨.operand argument :: arguments, Written.cons (element_operand told) written⟩
    | case4 argument rest going found told ih =>
      rw [getopt_found going told, List.mem_append, not_or] at known
      obtain ⟨spelling, valid, render⟩ := element_spelled going told known.1
      obtain ⟨arguments, written⟩ := ih known.2
      have more := written.cons valid
      rw [render] at more
      exact ⟨spelling :: arguments, more⟩
    | case5 argument rest going found val told ih =>
      cases rest with
      | nil =>
        rw [Spec.getopt, if_neg going, told] at known
        simp at known
      | cons value later =>
        rw [getopt_awaiting going told, List.mem_append, not_or, List.mem_cons, not_or] at known
        obtain ⟨spelling, valid, render⟩ := element_spelled going told known.1 value
        obtain ⟨arguments, written⟩ := ih known.2.2
        have more := written.cons valid
        rw [render] at more
        exact ⟨spelling :: arguments, more⟩
  · rintro ⟨arguments, written⟩ error
    rw [written.read] at error
    obtain ⟨argument, -, member⟩ := List.mem_flatMap.mp error
    exact options_known argument member

end Getopt
