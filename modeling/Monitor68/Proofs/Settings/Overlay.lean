import Monitor68.Proofs.Json.Compact
import Monitor68.Proofs.Text.Lines

/-!
# Settings that lie over the defaults

A `Part` is some of the settings, and `Part.overlay` is the settings with
the defaults everywhere else.  A text writes a part if it is an object that
names the settings of the part, each once, among any other members.
Whatever the order, the other members and the white space are, such a text
is read as the overlay of the part.  What is written of all settings is
such a text, so it is read as those settings.
-/

namespace Monitor68

open Json Text

/-! ## Layouts -/

namespace Screen.Layout

/-- Some fields of a layout. -/
structure Part where
  base : Option UInt32 := none
  width : Option UInt32 := none
  height : Option UInt32 := none
  frameSwap : Option Bool := none
  refreshRate : Option UInt32 := none
  interruptLine : Option UInt8 := none
deriving DecidableEq, Repr

namespace Part

/-- The layout with the fields of the part and the defaults everywhere else. -/
def overlay (p : Part) : Layout :=
  let default : Layout := {}
  { base := p.base.getD default.base
    width := p.width.getD default.width
    height := p.height.getD default.height
    frameSwap := p.frameSwap.getD default.frameSwap
    refreshRate := p.refreshRate.getD default.refreshRate
    interruptLine := p.interruptLine.getD default.interruptLine }

def names : List String :=
  ["base_address", "width", "height", "frame_swap", "refresh_rate_hz", "irq_line"]

def given (p : Part) : List (Option (Entry Layout)) :=
  [Entry.given? "base_address" (fun v => WrittenNat v.toNat) (fun l base => { l with base }) p.base,
   Entry.given? "width" (fun v => WrittenNat v.toNat) (fun l width => { l with width }) p.width,
   Entry.given? "height" (fun v => WrittenNat v.toNat) (fun l height => { l with height }) p.height,
   Entry.given? "frame_swap" WrittenBool (fun l frameSwap => { l with frameSwap }) p.frameSwap,
   Entry.given? "refresh_rate_hz" (fun v => WrittenNat v.toNat)
     (fun l refreshRate => { l with refreshRate }) p.refreshRate,
   Entry.given? "irq_line" (fun v => WrittenNat v.toNat)
     (fun l interruptLine => { l with interruptLine }) p.interruptLine]

/-- The texts that name the fields of the part. -/
def Written (p : Part) (text : List Char) : Prop := Writes names p.given.reduceOption text

theorem covers (p : Part) : Covers Layout.fields names p.given.reduceOption where
  names_eq := rfl
  nodup := by decide
  readBy e he := by
    have hfields : ∀ field ∈ Layout.fields, field ∈ Layout.fields := fun _ h => h
    rw [List.reduceOption_mem_iff, given] at he
    simp only [Layout.fields, List.forall_mem_cons] at hfields
    obtain ⟨hbase, hwidth, hheight, hswap, hrate, hline, -⟩ := hfields
    simp only [List.mem_cons, List.not_mem_nil, or_false] at he
    obtain h | h | h | h | h | h := he
    · exact ⟨_, hbase, Entry.readBy_of readsBack_uint32 (fun _ _ => rfl) h⟩
    · exact ⟨_, hwidth, Entry.readBy_of readsBack_uint32 (fun _ _ => rfl) h⟩
    · exact ⟨_, hheight, Entry.readBy_of readsBack_uint32 (fun _ _ => rfl) h⟩
    · exact ⟨_, hswap, Entry.readBy_of readsBack_bool (fun _ _ => rfl) h⟩
    · exact ⟨_, hrate, Entry.readBy_of readsBack_uint32 (fun _ _ => rfl) h⟩
    · exact ⟨_, hline, Entry.readBy_of readsBack_uint8 (fun _ _ => rfl) h⟩
  apart := by
    rw [List.reduceOption, List.pairwise_filterMap, given]
    simp only [List.pairwise_cons, List.forall_mem_cons, List.not_mem_nil, false_imp_iff,
      implies_true, and_true, List.Pairwise.nil]
    (repeat' apply And.intro) <;> exact Entry.apart_of (by decide) fun _ _ _ => rfl

theorem overlay_eq (p : Part) :
    p.given.reduceOption.foldl (fun l e => e.store l) {} = p.overlay := by
  obtain ⟨_ | _, _ | _, _ | _, _ | _, _ | _, _ | _⟩ := p <;> rfl

/-- A text that names the fields of a part is read as its overlay. -/
theorem readsBack : ReadsBack Written (readRecord Layout.fields {}) overlay := by
  intro p text htext
  obtain ⟨tokens, hlexes, hread⟩ := Writes.read p.covers htext
  refine ⟨tokens, hlexes, fun rest => ?_⟩
  rw [hread, overlay_eq]

/-- All fields of a layout. -/
def all (l : Layout) : Part where
  base := some l.base
  width := some l.width
  height := some l.height
  frameSwap := some l.frameSwap
  refreshRate := some l.refreshRate
  interruptLine := some l.interruptLine

/-- The texts of the values of a layout. -/
def values (l : Layout) : List String :=
  [Numeral.decimal l.base.toNat, Numeral.decimal l.width.toNat, Numeral.decimal l.height.toNat,
   boolText l.frameSwap, Numeral.decimal l.refreshRate.toNat,
   Numeral.decimal l.interruptLine.toNat]

theorem toJson_eq (l : Layout) :
    l.toJson = objectText (memberTexts (all l).given.reduceOption (values l)) :=
  rfl

theorem written_toJson (l : Layout) : (all l).Written l.toJson.toList := by
  have hwritten : WrittenAll (all l).given.reduceOption (values l) :=
    .cons (written_decimal _) <| .cons (written_decimal _) <| .cons (written_decimal _) <|
      .cons (written_boolText _) <| .cons (written_decimal _) <| .cons (written_decimal _) .nil
  rw [Written, toJson_eq]
  exact writes_objectText (all l).covers (by decide) (List.cons_ne_nil _ _) hwritten

end Part

end Screen.Layout

/-! ## Settings -/

namespace Settings

open Screen

/-- Some settings. -/
structure Part where
  base : Option UInt32 := none
  stack : Option UInt32 := none
  pollInterval : Option UInt64 := none
  screen : Option Layout.Part := none
deriving DecidableEq, Repr

namespace Part

/-- The settings of the part and the defaults everywhere else, also within the
screen. -/
def overlay (p : Part) : Settings :=
  let default : Settings := {}
  { base := p.base.getD default.base
    stack := p.stack.getD default.stack
    pollInterval := p.pollInterval.getD default.pollInterval
    screen := (p.screen.getD {}).overlay }

def names : List String := ["base_address", "stack_address", "poll_interval_ms", "screen"]

def given (p : Part) : List (Option (Entry Settings)) :=
  [Entry.given? "base_address" (fun v => WrittenNat v.toNat) (fun s base => { s with base }) p.base,
   Entry.given? "stack_address" (fun v => WrittenNat v.toNat) (fun s stack => { s with stack })
     p.stack,
   Entry.given? "poll_interval_ms" (fun v => WrittenNat v.toNat)
     (fun s pollInterval => { s with pollInterval }) p.pollInterval,
   Entry.given? "screen" Layout.Part.Written (fun s screen => { s with screen := screen.overlay })
     p.screen]

/-- The texts that name the settings of the part and nothing else, with white
space around them. -/
def Written (p : Part) (text : List Char) : Prop :=
  ∃ front object back, text = front ++ (object ++ back) ∧ Gap front ∧ Gap back ∧
    Writes names p.given.reduceOption object

theorem covers (p : Part) : Covers Settings.fields names p.given.reduceOption where
  names_eq := rfl
  nodup := by decide
  readBy e he := by
    have hfields : ∀ field ∈ Settings.fields, field ∈ Settings.fields := fun _ h => h
    rw [List.reduceOption_mem_iff, given] at he
    simp only [Settings.fields, List.forall_mem_cons] at hfields
    obtain ⟨hbase, hstack, hpoll, hscreen, -⟩ := hfields
    simp only [List.mem_cons, List.not_mem_nil, or_false] at he
    obtain h | h | h | h := he
    · exact ⟨_, hbase, Entry.readBy_of readsBack_uint32 (fun _ _ => rfl) h⟩
    · exact ⟨_, hstack, Entry.readBy_of readsBack_uint32 (fun _ _ => rfl) h⟩
    · exact ⟨_, hpoll, Entry.readBy_of readsBack_uint64 (fun _ _ => rfl) h⟩
    · exact ⟨_, hscreen, Entry.readBy_of Layout.Part.readsBack (fun _ _ => rfl) h⟩
  apart := by
    rw [List.reduceOption, List.pairwise_filterMap, given]
    simp only [List.pairwise_cons, List.forall_mem_cons, List.not_mem_nil, false_imp_iff,
      implies_true, and_true, List.Pairwise.nil]
    (repeat' apply And.intro) <;> exact Entry.apart_of (by decide) fun _ _ _ => rfl

theorem overlay_eq (p : Part) :
    p.given.reduceOption.foldl (fun s e => e.store s) {} = p.overlay := by
  obtain ⟨_ | _, _ | _, _ | _, _ | _⟩ := p <;> rfl

/-- A text that names the settings of a part is parsed as its overlay. -/
theorem parse_written {p : Part} {text : List Char} (h : p.Written text) :
    parse (String.ofList text) = .ok p.overlay := by
  obtain ⟨front, object, back, rfl, hfront, hback, hobject⟩ := h
  obtain ⟨tokens, hlexes, hread⟩ := Writes.read p.covers hobject
  have hwhole := hread {} []
  rw [List.append_nil, overlay_eq] at hwhole
  rw [parse, String.toList_ofList, ((hlexes.before_gap hback).behind_gap hfront).lex_eq, readWhole,
    hwhole]

def all (s : Settings) : Part where
  base := some s.base
  stack := some s.stack
  pollInterval := some s.pollInterval
  screen := some (.all s.screen)

theorem overlay_all (s : Settings) : (all s).overlay = s := rfl

def values (s : Settings) : List String :=
  [Numeral.decimal s.base.toNat, Numeral.decimal s.stack.toNat,
   Numeral.decimal s.pollInterval.toNat, s.screen.toJson]

theorem toJson_eq (s : Settings) :
    s.toJson = objectText (memberTexts (all s).given.reduceOption (values s)) :=
  rfl

theorem written_toJson (s : Settings) : (all s).Written s.toJson.toList := by
  have hwritten : WrittenAll (all s).given.reduceOption (values s) :=
    .cons (written_decimal _) <| .cons (written_decimal _) <| .cons (written_decimal _) <|
      .cons (Layout.Part.written_toJson s.screen) .nil
  refine ⟨[], s.toJson.toList, [], by simp, Gap.nil, Gap.nil, ?_⟩
  rw [toJson_eq]
  exact writes_objectText (all s).covers (by decide) (List.cons_ne_nil _ _) hwritten

end Part

/-! ## Loading -/

/-- A file that holds a text is loaded as what the text is parsed to, if the
screen fits. -/
theorem load_of_parse {files : Files.FileSystem} {path : String} {text : List Char} {s : Settings}
    (hopen : files.openFile path = .ok { bytes := encodeUtf8 text })
    (hparse : parse (String.ofList text) = .ok s) : load files path = s.checked := by
  have htext : Files.Contents.text { bytes := encodeUtf8 text } = .ok (String.ofList text) :=
    Files.decodeLine_encodeUtf8 text
  rw [load, hopen]
  simp only [ofContents, htext, hparse]

theorem checked_eq (s : Settings) :
    (s.screen.validate = .ok () → s.checked = .ok s) ∧
      (s.screen.validate ≠ .ok () → s.checked = .error (.invalid ⟨s.screen⟩)) := by
  unfold checked Layout.validate
  split <;> simp_all

/-- A file that names some settings lays them over the defaults, whatever the
order is, whatever else it names, and wherever it has white space.  The
settings are loaded if their screen fits and are refused if not.  What is
written of settings is loaded as those settings. -/
theorem load_overlays_defaults (files : Files.FileSystem) (path : String) :
    (∀ (p : Part) (text : List Char), p.Written text →
      parse (String.ofList text) = .ok p.overlay ∧
      (files.openFile path = .ok { bytes := encodeUtf8 text } →
        (p.overlay.screen.validate = .ok () → load files path = .ok p.overlay) ∧
        (p.overlay.screen.validate ≠ .ok () →
          load files path = .error (.invalid ⟨p.overlay.screen⟩)))) ∧
    ∀ s : Settings, s.screen.validate = .ok () →
      files.openFile path = .ok { bytes := encodeUtf8 s.toJson.toList } →
      load files path = .ok s := by
  constructor
  · intro p text hwritten
    have hparse := Part.parse_written hwritten
    refine ⟨hparse, fun hopen => ?_⟩
    rw [load_of_parse hopen hparse]
    exact checked_eq p.overlay
  · intro s hvalid hopen
    have hparse := Part.parse_written (Part.written_toJson s)
    rw [Part.overlay_all] at hparse
    rw [load_of_parse hopen hparse]
    exact (checked_eq s).1 hvalid

/-- Files that all hold one text. -/
def holding (text : List Char) : Files.FileSystem where
  openFile _ := .ok { bytes := encodeUtf8 text }
  isFile _ := true
  obstacle _ := none

/-- Two settings in any order, with white space, an escaped name and an unknown
member whose value nests. -/
def sampleText : List Char :=
  (" \x7b\"screen\":\x7b\"frame_swap\":true\x7d , \"\\u0041\" : [ \x7b\x7d , -1.5e3 ],"
    ++ "\"stack_\\u0061ddress\":40960\x7d\n").toList

theorem written_sampleText :
    Part.Written { stack := some 40960, screen := some { frameSwap := some true } } sampleText := by
  have hnumber : Derives .value "-1.5e3".toList :=
    .number (@Number.mk ['-'] ['1'] ['.', '5'] ['e', '3'] (by decide)
      ⟨by decide, by decide⟩ (.some (by decide))
      (@Exponent.some 'e' [] ['3'] (by decide) (by decide) (by decide)))
  have hvalue : Derives .value "[ \x7b\x7d , -1.5e3 ]".toList :=
    .array (.nextElement
      (@Derives.element [' '] _ [' '] (by decide) (.emptyObject Gap.nil) (by decide))
      (.lastElement (@Derives.element [' '] _ [' '] (by decide) hnumber (by decide))))
  have hstack : Spells "stack_\\u0061ddress".toList "stack_address".toList :=
    ((by decide : Plain "stack_".toList).spells.append
      (@spells_unit 'a' ['0', '0', '6', '1'] (by decide) (by decide))).append
      (by decide : Plain "ddress".toList).spells
  have hother : Spells "\\u0041".toList ['A'] :=
    @spells_unit 'A' ['0', '0', '4', '1'] (by decide) (by decide)
  let swap : Member :=
    { name := "frame_swap".toList, letters := "frame_swap".toList, value := "true".toList
      spells := Plain.spells (by decide) }
  let screen : Member :=
    { name := "screen".toList, letters := "screen".toList
      value := "\x7b\"frame_swap\":true\x7d".toList, back := [' ']
      spells := Plain.spells (by decide), gap_back := by decide }
  let other : Member :=
    { name := ['A'], letters := "\\u0041".toList, value := "[ \x7b\x7d , -1.5e3 ]".toList
      front := [' '], before := [' '], behind := [' '], spells := hother
      gap_front := by decide, gap_before := by decide, gap_behind := by decide }
  let stack : Member :=
    { name := "stack_address".toList, letters := "stack_\\u0061ddress".toList
      value := "40960".toList, spells := hstack }
  have hforeign : ∀ name ∈ Part.names, ['A'] ≠ name.toList := by decide
  have hscreen : Layout.Part.Written { frameSwap := some true } screen.value :=
    ⟨[swap], [some _], .members swap [], .cons (.entry _ rfl rfl) .nil, .refl _⟩
  refine ⟨[' '], _, ['\n'], rfl, by decide, by decide, [screen, other, stack], _,
    .members screen [other, stack],
    .cons (.entry _ rfl hscreen) (.cons (.nothing hforeign hvalue)
      (.cons (.entry _ rfl rfl) .nil)), .swap _ _ _⟩

/-- A screen whose frame buffer would end behind the last address. -/
def cramped : Settings := { screen := { base := 0xffffffff } }

/-- A file of two settings, the file of some settings, and one whose screen does
not fit. -/
theorem load_sampleText :
    load (holding sampleText) "a.json" =
        .ok { stack := 40960, screen := { frameSwap := true } } ∧
      load (holding cramped.toJson.toList) "a.json" = .error (.invalid ⟨cramped.screen⟩) ∧
      load (holding (toJson { pollInterval := 5 }).toList) "a.json" =
        .ok { pollInterval := 5 } := by
  have hsample := (load_overlays_defaults (holding sampleText) "a.json").1 _ _ written_sampleText
  have hcramped := (load_overlays_defaults (holding cramped.toJson.toList) "a.json").1 _ _
    (Part.written_toJson cramped)
  exact ⟨(hsample.2 rfl).1 (by decide), (hcramped.2 rfl).2 (by decide),
    (load_overlays_defaults (holding (toJson { pollInterval := 5 }).toList) "a.json").2
      { pollInterval := 5 } (by decide) rfl⟩

end Settings

end Monitor68
