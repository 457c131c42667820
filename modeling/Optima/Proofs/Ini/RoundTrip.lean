import Optima.Ini.Reader
import Optima.Ini.Reference
import Optima.Ini.Writer
import Optima.Proofs.Lookup
import Optima.Proofs.Text

/-!
# Sections that are read back

A document of one section is read back as it was written (`read_write`): its name has to be a word, and its options
have to have plain names, no two the same, and solid values.  The name of the section may be anything that is a word,
with brackets in it or the name of the section whose options belong to all.

The induction is on the options.  After the header and the first options have been read, the reading is `inside` the
section with these options, and the next line adds one (`addLine_option`).
-/

namespace Optima.Ini

open Text (Solid Unbroken isBlank)

/-- A name that is told apart from the value after it, and that starts neither a section nor a comment. -/
structure PlainName (name : List Char) : Prop where
  nonempty : name ≠ []
  solid : Solid name
  delimiters : ∀ c ∈ name, isDelimiter c = false
  first : ∀ c ∈ name.head?, c ≠ '[' ∧ c ≠ '#' ∧ c ≠ ';'

/-- A value that is read back as it is. -/
structure PlainValue (value : List Char) : Prop where
  nonempty : value ≠ []
  solid : Solid value

/-- Options that are read back as they are. -/
structure PlainOptions (options : Options) : Prop where
  names : ∀ o ∈ options, PlainName o.1.toList
  values : ∀ o ∈ options, PlainValue o.2.toList
  distinct : (options.map Prod.fst).Nodup

/-! ### What is written -/

/-- The line of an option, without its line feed. -/
def optionLine (name value : List Char) : List Char :=
  name ++ ' ' :: '=' :: ' ' :: value

/-- The line of a section, without its line feed. -/
def headerLine (name : List Char) : List Char :=
  '[' :: name ++ [']']

theorem indentLines_solid {value : List Char} (h : Unbroken value) : indentLines value = value := by
  induction value with
  | nil => rfl
  | cons c value ih =>
    have hc : (c == '\n') = false := beq_false_of_ne (h c (List.mem_cons_self ..)).1
    have hrest : indentLines value = value := ih fun d hd => h d (List.mem_cons_of_mem _ hd)
    rw [indentLines] at hrest ⊢
    rw [List.flatMap_cons, hrest, hc]
    rfl

theorem writeOption_plain {name value : String} (h : PlainValue value.toList) :
    writeOption name value = optionLine name.toList value.toList ++ ['\n'] := by
  rw [writeOption, indentLines_solid h.solid.unbroken, optionLine]
  simp

theorem headerLine_solid {name : List Char} (h : Solid name) : Solid (headerLine name) := by
  intro c hc
  rcases List.mem_append.1 hc with hc | hc
  · rcases List.mem_cons.1 hc with rfl | hc
    · rfl
    · exact h c hc
  · rw [List.mem_singleton.1 hc]
    rfl

theorem optionLine_unbroken {name value : List Char} (hname : PlainName name) (hvalue : PlainValue value) :
    Unbroken (optionLine name value) := by
  have hmiddle : Unbroken [' ', '=', ' '] := by simp [Unbroken]
  have hline := (hname.solid.unbroken.append hmiddle).append hvalue.solid.unbroken
  rw [List.append_assoc] at hline
  exact hline

/-! ### Where a reading stands -/

namespace Reading

/-- A reading that stands in a section with these options. -/
def inside (name : String) (options : OpenOptions) (option? : Option String) : Reading :=
  if name == defaultName then ⟨options, [], some name, option?, 0, []⟩
  else ⟨[], [(name, options)], some name, option?, 0, []⟩

variable {name : String} {options : OpenOptions} {last : Option String}

theorem inside_fields : (inside name options last).current? = some name ∧
    (inside name options last).option? = last ∧ (inside name options last).indent = 0 := by
  unfold inside
  split <;> exact ⟨rfl, rfl, rfl⟩

theorem inside_options : (inside name options last).options = options := by
  unfold inside Reading.options
  by_cases hname : name == defaultName
  · simp [hname]
  · simp [hname]

theorem inside_mapOptions (f : OpenOptions → OpenOptions) :
    (inside name options last).mapOptions f = inside name (f options) last := by
  unfold inside mapOptions
  by_cases hname : name == defaultName
  · simp [hname]
  · simp [hname]

theorem inside_continuing (option? : Option String) :
    { inside name options last with option? := option? } = inside name options option? := by
  unfold inside
  split <;> rfl

/-! ### Single lines -/

/-- The name of a section may have brackets in it. -/
theorem sectionName?_header {name : List Char} (hne : name ≠ []) :
    sectionName? (headerLine name) = some (String.ofList name) := by
  have hreverse : (name ++ [']']).reverse = ']' :: name.reverse := List.reverse_append
  cases hname : name.reverse with
  | nil => exact absurd (List.reverse_eq_nil_iff.1 hname) hne
  | cons c rest =>
    have hback : (c :: rest).reverse = name := by rw [← hname, List.reverse_reverse]
    rw [headerLine, List.cons_append, sectionName?, hreverse, hname, List.dropWhile_cons_of_neg (by decide)]
    exact congrArg (some ∘ String.ofList) hback

theorem addLine_header {name : List Char} (hne : name ≠ []) (hname : Solid name) (file : String) (number : Nat) :
    start.addLine file number (headerLine name ++ ['\n']) = .ok (inside (String.ofList name) [] none) := by
  have hsolid := headerLine_solid hname
  have hcontent : Text.strip (headerLine name ++ ['\n']) = headerLine name :=
    Text.strip_append (List.cons_ne_nil _ _) hsolid.head hsolid.last (List.forall_mem_singleton.2 rfl)
  have hindent : ((headerLine name ++ ['\n']).takeWhile isBlank).length = 0 := rfl
  unfold addLine
  simp only [hcontent, hindent]
  unfold startLine
  rw [sectionName?_header hne]
  unfold startSection inside
  by_cases hdefault : String.ofList name == defaultName
  · simp [hdefault, start, headerLine, isComment]
  · simp [hdefault, start, headerLine, isComment]

theorem splitOption?_line {key value : List Char} (hkey : PlainName key) (hvalue : PlainValue value) :
    splitOption? (optionLine key value) = some (key, value) := by
  have hname : ∀ c ∈ key ++ [' '], (!isDelimiter c) = true := by
    intro c hc
    rcases List.mem_append.1 hc with hc | hc
    · rw [hkey.delimiters c hc]
      rfl
    · rw [List.mem_singleton.1 hc]
      rfl
  have hline : optionLine key value = (key ++ [' ']) ++ '=' :: ' ' :: value := by simp [optionLine]
  have hdrop : (optionLine key value).dropWhile (fun c => !isDelimiter c) = '=' :: ' ' :: value := by
    rw [hline, List.dropWhile_append_of_pos hname]
    rfl
  have htake : (optionLine key value).takeWhile (fun c => !isDelimiter c) = key ++ [' '] := by
    rw [hline, List.takeWhile_append_of_pos hname]
    simp [isDelimiter]
  have hstrip : Text.strip (' ' :: value) = value := Text.strip_eq_self hvalue.solid.head hvalue.solid.last
  unfold splitOption?
  rw [hdrop, htake, Text.dropEndWhile_append hkey.solid.last (List.forall_mem_singleton.2 rfl)]
  exact congrArg (fun v => some (key, v)) hstrip

theorem startOption_inside {key : List Char} (hne : key ≠ []) (hnew : String.ofList key ∉ options.map Prod.fst)
    (value : List Char) (file : String) (number : Nat) :
    (inside name options last).startOption file number (String.ofList key) value =
      .ok (inside name (options ++ [(String.ofList key, [value])]) (some (String.ofList key))) := by
  have hfree : ((inside name options last).options.lookup (String.ofList key)).isSome = false := by
    rw [inside_options, lookup_eq_none hnew]
    rfl
  have hname : (String.ofList key).isEmpty = false := by simpa using hne
  unfold startOption
  rw [hfree, inside_mapOptions, hname]
  exact congrArg Except.ok (inside_continuing _)

section OptionLine

variable {key value : List Char} (hkey : PlainName key)

include hkey

theorem strip_optionLine (hvalue : PlainValue value) :
    Text.strip (optionLine key value ++ ['\n']) = optionLine key value := by
  have hhead : (optionLine key value).head? = key.head? := List.head?_append_of_ne_nil key hkey.nonempty
  refine Text.strip_append ?_ ?_ ?_ (List.forall_mem_singleton.2 rfl)
  · exact List.append_ne_nil_of_left_ne_nil hkey.nonempty _
  · rw [hhead]
    exact hkey.solid.head
  · have hline : optionLine key value = (key ++ [' ', '=', ' ']) ++ value := by simp [optionLine]
    rw [hline, Text.getLast?_append_right _ hvalue.nonempty]
    exact hvalue.solid.last

theorem indent_optionLine : ((optionLine key value ++ ['\n']).takeWhile isBlank).length = 0 := by
  obtain ⟨c, rest, rfl⟩ := List.exists_cons_of_ne_nil hkey.nonempty
  have hblank : isBlank c = false := hkey.solid c (List.mem_cons_self ..)
  simp [optionLine, hblank]

theorem isComment_optionLine : isComment (optionLine key value) = false := by
  obtain ⟨c, rest, rfl⟩ := List.exists_cons_of_ne_nil hkey.nonempty
  obtain ⟨-, hhash, hsemicolon⟩ := hkey.first c rfl
  unfold isComment optionLine
  split
  · next heq => exact absurd (List.cons.inj heq).1 hhash
  · next heq => exact absurd (List.cons.inj heq).1 hsemicolon
  · rfl

theorem sectionName?_optionLine : sectionName? (optionLine key value) = none := by
  obtain ⟨c, rest, rfl⟩ := List.exists_cons_of_ne_nil hkey.nonempty
  unfold sectionName? optionLine
  split
  · next heq => exact absurd (List.cons.inj heq).1 (hkey.first c rfl).1
  · rfl

end OptionLine

theorem addLine_option {key value : List Char} (hkey : PlainName key) (hvalue : PlainValue value)
    (hnew : String.ofList key ∉ options.map Prod.fst) (file : String) (number : Nat) :
    (inside name options last).addLine file number (optionLine key value ++ ['\n']) =
      .ok (inside name (options ++ [(String.ofList key, [value])]) (some (String.ofList key))) := by
  obtain ⟨hcurrent, -, hstands⟩ :
      (inside name options last).current? = some name ∧ (inside name options last).option? = last ∧
        (inside name options last).indent = 0 := inside_fields
  have hsame : { inside name options last with indent := 0 } = inside name options last := by
    rw [← hstands]
  have hwithin : ((inside name options last).option?.isSome && decide (0 < 0)) = false := Bool.and_false _
  have hline : (optionLine key value).isEmpty = false :=
    List.isEmpty_eq_false_iff.2 (List.append_ne_nil_of_left_ne_nil hkey.nonempty _)
  have hnamed : key.isEmpty = false := List.isEmpty_eq_false_iff.2 hkey.nonempty
  unfold addLine
  simp only [strip_optionLine hkey hvalue, indent_optionLine hkey, isComment_optionLine hkey]
  rw [hstands, hsame]
  unfold startLine
  rw [sectionName?_optionLine hkey, splitOption?_line hkey hvalue, hcurrent, hwithin, hline]
  simp only [hnamed]
  exact startOption_inside hkey.nonempty hnew value file number

/-- Options with an empty line after the value of one of them. -/
def withEmptyLine (key : String) (options : OpenOptions) : OpenOptions :=
  options.map fun o => if o.1 == key then (o.1, o.2 ++ [[]]) else o

theorem addLine_empty (key : String) (file : String) (number : Nat) :
    (inside name options (some key)).addLine file number ['\n'] =
      .ok (inside name (withEmptyLine key options) (some key)) := by
  have hcontent : Text.strip ['\n'] = [] := by decide
  unfold addLine
  simp only [hcontent]
  show Except.ok ((inside name options (some key)).continueValue []) = _
  rw [continueValue, inside_fields.2.1]
  exact congrArg Except.ok (inside_mapOptions _)

/-! ### All lines -/

/-- Options as they stand while they are read. -/
def opened (options : Options) : OpenOptions :=
  options.map fun o => (o.1, [o.2.toList])

theorem addLines_options (name : String) (last : Option String) (done : Options) {rest : Options}
    (hplain : PlainOptions (done ++ rest)) (file : String) (number : Nat) (tail : List (List Char)) :
    (inside name (opened done) last).addLines file number
        (rest.map (fun o => optionLine o.1.toList o.2.toList ++ ['\n']) ++ tail) =
      (inside name (opened (done ++ rest)) ((rest.getLast?.map Prod.fst).or last)).addLines file
        (number + rest.length) tail := by
  induction rest generalizing done last number with
  | nil => rw [List.append_nil]; rfl
  | cons o rest ih =>
    have hmem : o ∈ done ++ o :: rest := List.mem_append_right _ (List.mem_cons_self ..)
    have hnew : String.ofList o.1.toList ∉ (opened done).map Prod.fst := by
      have hdistinct := hplain.distinct
      rw [List.map_append, List.nodup_append] at hdistinct
      rw [String.ofList_toList, opened, List.map_map]
      exact fun h => hdistinct.2.2 _ h _ (List.mem_cons_self ..) rfl
    have hopened : opened done ++ [(o.1, [o.2.toList])] = opened (done ++ [o]) := by simp [opened]
    have hlast : ((o :: rest).getLast?.map Prod.fst).or last = (rest.getLast?.map Prod.fst).or (some o.1) := by
      rw [List.getLast?_cons]
      cases rest.getLast? <;> rfl
    have hcount : number + (o :: rest).length = number + 1 + rest.length := by
      rw [List.length_cons]
      omega
    rw [List.append_cons done o rest] at hplain ⊢
    rw [List.map_cons, List.cons_append, addLines,
      addLine_option (hplain.names o (by simp)) (hplain.values o (by simp)) hnew, String.ofList_toList, hopened, hlast,
      hcount]
    exact ih _ _ hplain _

theorem close_opened {options : Options} (hplain : PlainOptions options) (key : String) :
    close (withEmptyLine key (opened options)) = options := by
  have hone : ∀ o ∈ options,
      String.ofList (Text.dropEndWhile isBlank (List.intercalate ['\n'] [o.2.toList])) = o.2 := by
    intro o ho
    have hsingle : List.intercalate ['\n'] [o.2.toList] = o.2.toList := by simp [List.intercalate]
    rw [hsingle, Text.dropEndWhile_eq_self (hplain.values o ho).solid.last, String.ofList_toList]
  have htwo : ∀ o ∈ options,
      String.ofList (Text.dropEndWhile isBlank (List.intercalate ['\n'] ([o.2.toList] ++ [[]]))) = o.2 := by
    intro o ho
    have hpair : List.intercalate ['\n'] ([o.2.toList] ++ [[]]) = o.2.toList ++ ['\n'] := by
      simp [List.intercalate]
    rw [hpair, Text.dropEndWhile_append (hplain.values o ho).solid.last (List.forall_mem_singleton.2 rfl),
      String.ofList_toList]
  rw [withEmptyLine, opened, close, List.map_map, List.map_map]
  refine (List.map_congr_left fun o ho => ?_).trans (List.map_id options)
  rw [Function.comp_apply, Function.comp_apply]
  by_cases hkey : (o.1 == key) = true
  · simp only [hkey, ↓reduceIte]
    exact Prod.ext rfl (htwo o ho)
  · simp only [hkey]
    exact Prod.ext rfl (hone o ho)

theorem document_inside (file : String) :
    (inside name options last).document file = .ok (Document.ofSection name (close options)) := by
  unfold inside document Document.ofSection
  by_cases hname : (name == defaultName) = true
  · simp [hname, close]
  · simp [hname]
    rfl

end Reading

/-! ### The whole document -/

private theorem writeSection_plain (name : String) {options : Options}
    (hvalues : ∀ o ∈ options, PlainValue o.2.toList) : writeSection name options = headerLine name.toList ++ '\n' ::
      (options.flatMap (fun o => optionLine o.1.toList o.2.toList ++ ['\n']) ++ ['\n']) := by
  have hlines : options.flatMap (fun o => writeOption o.1 o.2) =
      options.flatMap fun o => optionLine o.1.toList o.2.toList ++ ['\n'] :=
    List.flatMap_congr fun o ho => writeOption_plain (hvalues o ho)
  rw [writeSection, hlines, headerLine]
  simp

/-- Options of the section that belongs to all are written first, but a document of one section has no other. -/
private theorem write_ofSection (name : String) {options : Options} (hoptions : options ≠ []) :
    (Document.ofSection name options).write = String.ofList (writeSection name options) := by
  unfold Document.ofSection
  by_cases hname : (name == defaultName) = true
  · obtain rfl := eq_of_beq hname
    rw [if_pos hname]
    simp [Document.write, hoptions]
  · rw [if_neg hname]
    simp [Document.write]

private theorem lines_options {options : Options} (hplain : PlainOptions options) :
    Text.lines (options.flatMap (fun o => optionLine o.1.toList o.2.toList ++ ['\n']) ++ ['\n']) =
      options.map (fun o => optionLine o.1.toList o.2.toList ++ ['\n']) ++ [['\n']] := by
  induction options with
  | nil => rfl
  | cons o options ih =>
    have hline := optionLine_unbroken (hplain.names o (List.mem_cons_self ..)) (hplain.values o (List.mem_cons_self ..))
    have hrest : PlainOptions options :=
      ⟨fun p hp => hplain.names p (List.mem_cons_of_mem _ hp), fun p hp => hplain.values p (List.mem_cons_of_mem _ hp),
        (List.nodup_cons.1 hplain.distinct).2⟩
    have hsplit := Text.lines_cons hline
      (options.flatMap (fun o => optionLine o.1.toList o.2.toList ++ ['\n']) ++ ['\n'])
    rw [List.flatMap_cons, List.map_cons, List.cons_append, ← ih hrest, ← hsplit]
    simp

/-- A document of one section with plain options is read back as it was written. -/
theorem read_write {name : String} (hne : name.toList ≠ []) (hname : Solid name.toList) {options : Options}
    (hoptions : options ≠ []) (hplain : PlainOptions options) (file : String) :
    Document.read file (Document.ofSection name options).write = .ok (Document.ofSection name options) := by
  have hlines : Text.lines (writeSection name options) = (headerLine name.toList ++ ['\n']) ::
      (options.map (fun o => optionLine o.1.toList o.2.toList ++ ['\n']) ++ [['\n']]) := by
    rw [writeSection_plain name hplain.values, Text.lines_cons (headerLine_solid hname).unbroken,
      lines_options hplain]
  obtain ⟨key, hkey⟩ : ∃ key, (options.getLast?.map Prod.fst).or none = some key := by
    rw [Option.or_none]
    cases hlast : options.getLast? with
    | none => exact absurd (List.getLast?_eq_none_iff.1 hlast) hoptions
    | some o => exact ⟨o.1, rfl⟩
  have hread : Reading.start.addLines file 1 (Text.lines (writeSection name options)) =
      .ok (Reading.inside name (Reading.withEmptyLine key (Reading.opened options)) (some key)) := by
    have hoptionLines := Reading.addLines_options name none [] hplain file 2 [['\n']]
    rw [hlines, Reading.addLines, Reading.addLine_header hne hname, String.ofList_toList]
    refine hoptionLines.trans ?_
    rw [hkey, Reading.addLines, List.nil_append, Reading.addLine_empty]
    rfl
  rw [Document.read, write_ofSection name hoptions, String.toList_ofList, hread]
  refine (Reading.document_inside file).trans ?_
  rw [Reading.close_opened hplain]

/-- The options of the one section of a document. -/
theorem optionsOf?_ofSection (name : String) (options : Options) :
    (Document.ofSection name options).optionsOf? name = some options := by
  unfold Document.ofSection Document.optionsOf?
  by_cases hname : (name == defaultName) = true
  · simp [hname]
  · simp [hname, Options.inherit]

/-! ### Values without references -/

theorem pieces_plain {value : List Char} (h : '%' ∉ value) : pieces value = value.map .char := by
  induction value with
  | nil => rw [pieces, List.map_nil]
  | cons c value ih =>
    rw [List.mem_cons, not_or] at h
    have hc : c ≠ '%' := fun heq => h.1 heq.symm
    rw [pieces, ih h.2, List.map_cons]
    · exact fun _ heq => absurd heq hc
    · exact fun _ heq => absurd heq hc
    · exact fun heq => absurd heq hc

private theorem mapM_chars {f : Piece → Except IniFault (List Char)} (hf : ∀ c, f (.char c) = .ok [c])
    (value : List Char) : (value.map Piece.char).mapM f = .ok (value.map fun c => [c]) := by
  induction value with
  | nil => rfl
  | cons c value ih =>
    rw [List.map_cons, List.mapM_cons, hf, ih]
    rfl

/-- A value without a percent sign stands for itself. -/
theorem value_plain {raw : String} (h : '%' ∉ raw.toList) (options : Options) (name option : String) :
    options.value name option raw = .ok raw := by
  have hexpand : expand name option raw options maxSteps raw.toList = .ok raw.toList := by
    unfold maxSteps expand
    rw [pieces_plain h, mapM_chars fun c => rfl]
    show Except.ok (raw.toList.map fun c => [c]).flatten = Except.ok raw.toList
    rw [← List.flatMap_def, List.flatMap_singleton']
  rw [Options.value, hexpand]
  exact congrArg Except.ok String.ofList_toList

end Optima.Ini
