/-
# Cue.Collectors.Syslog — one record per line on a syslog stream

The syslog collectors render each event with `syslogFormatter` (RFC 3164) or
`structuredFormatter` (RFC 5424) and write the record to a socket. Both format
strings end in `"\n"`, which is what delimits records on a stream socket, and
the default message formatter, `HumanMessage`, escapes every newline of the
message and context.

* `syslog_records_one_line` — for every event, with an app, host name, ID and
  clock that write no newline: an RFC 3164 record is one line before
  `Truncate(…, 1024)`, and stays one exactly when it fits in 1024 bytes; an
  RFC 5424 record is one line exactly when no value `StructuredContext` writes
  has a newline in its text;
* `syslog_records_split` — both limits are reached: an app name of 1100 runes
  makes the truncation cut the RFC 3164 record's `"\n"`, and a context value
  `"a\nb"` goes into the RFC 5424 structured data unescaped, since
  `writeStructuredValue` escapes only `"`, `\` and `]`.
-/
import Mathlib.Data.Nat.Digits
import Mathlib.Tactic.IntervalCases
import Cue.Config
import Cue.Format.Formatf
import Cue.Format.Structured

namespace Cue.Collectors

open Cue.Format

set_option autoImplicit false

variable {V : Type}

/-! ## The pieces of a record -/

-- The syslog severities `severityFor` returns.
def sCRITICAL : Nat := 2
def sERROR : Nat := 3
def sWARN : Nat := 4
def sINFO : Nat := 6
def sDEBUG : Nat := 7

/-- `severityFor(level)`; it panics on any other level (`none`), which no
event carries. -/
def severityFor (level : Nat) : Option Nat :=
  if level = DEBUG then some sDEBUG
  else if level = INFO then some sINFO
  else if level = WARN then some sWARN
  else if level = ERROR then some sERROR
  else if level = FATAL then some sCRITICAL
  else none

/-- `priorityFor(facility, level)`: `8*facility + severity`, in `uint`. -/
def priorityFor (facility level : Nat) : Option Nat :=
  (severityFor level).map fun s => (8 * facility + s) % 2 ^ 64

/-- `priFormatter(facility)`: `"<%d>"` of the priority; nothing where
`severityFor` panics. -/
def priFormatter (facility : Nat) : Formatter V := fun e =>
  match priorityFor facility e.level with
  | some p => encode ("<" ++ toString p ++ ">")
  | none => []

/-- `procIDFormatter(app)`: `"%s[%d]"` of the app and `os.Getpid()`. -/
def procIDFormatter (app : String) (pid : Nat) : Formatter V := Literal (app ++ "[" ++ toString pid ++ "]")

/-- `formatBOM`: `rfc5424BOM`. -/
def formatBOM : Formatter V := fun _ => [0xef, 0xbb, 0xbf]

def rfc5424Time : String := "2006-01-02T15:04:05.000000-07:00"
def rfc5424Version : String := "1"
def ourID : String := "cue@47338"
def syslogNil : String := "-"

/-- `time.RFC3339`. -/
def RFC3339 : String := "2006-01-02T15:04:05Z07:00"

/-- `time.Stamp`. -/
def Stamp : String := "Jan _2 15:04:05"

/-- What the syslog formatters read besides the event: the rendering of the
event's `Time` in a layout, `os.Hostname()`, the output of `/bin/hostname -f`
(`none` where they fail), and `os.Getpid()`. -/
structure Host (V : Type) where
  clock : Event V → String → String
  hostname : Option String
  fqdn : Option (List UInt8)
  pid : Nat

/-! ## The two formatters -/

/-- The record `syslogFormatter` renders, before it truncates it; `isLocal` is
`local`, set for a unix socket. -/
def syslogRecord (lib : Lib V) (host : Host V) (facility : Nat) (app : String) (isLocal : Bool)
    (msgFormatter : Option (Formatter V)) : Formatter V :=
  let msgFormatter := msgFormatter.getD (HumanMessage lib)
  if isLocal then
    Formatf "%v%v %v: %v\n" [priFormatter facility, Time host.clock Stamp, procIDFormatter app host.pid, msgFormatter]
  else
    Formatf "%v%v %v %v: %v\n"
      [priFormatter facility, Time host.clock RFC3339, Hostname host.hostname, procIDFormatter app host.pid,
        msgFormatter]

/-- `syslogFormatter(facility, app, local, msgFormatter)`: RFC 3164 limits a
message to 1024 bytes. -/
def syslogFormatter (lib : Lib V) (host : Host V) (facility : Nat) (app : String) (isLocal : Bool)
    (msgFormatter : Option (Formatter V)) : Formatter V :=
  Truncate (syslogRecord lib host facility app isLocal msgFormatter) 1024

/-- `structuredFormatter(facility, app, msgFormatter, structFormatter, ID, writeBom)`. -/
def structuredFormatter (lib : Lib V) (host : Host V) (facility : Nat) (app : String)
    (msgFormatter structFormatter : Option (Formatter V)) (ID : String) (writeBom : Bool) : Formatter V :=
  let msgid := syslogNil
  let bomFormatter := if writeBom then formatBOM else Literal ""
  let ID := if ID = "" then ourID else ID
  let msgFormatter := msgFormatter.getD (HumanMessage lib)
  let structFormatter := structFormatter.getD (StructuredContext lib)
  Formatf "%v%v %v %v %v %v %v [%v] %v%v\n"
    [priFormatter facility, Literal rfc5424Version, Time host.clock rfc5424Time, FQDN host.fqdn, Literal app,
      procIDFormatter app host.pid, Literal msgid, Join " " [Literal ID, structFormatter], bomFormatter,
      msgFormatter]

/-! ## The records, piece by piece -/

theorem formatChain_rfc3164 : formatChain "%v%v %v %v: %v\n" 5 =
    [.formatter 0, .formatter 1, .literal " ", .formatter 2, .literal " ", .formatter 3, .literal ": ",
      .formatter 4, .literal "\n"] := by decide

theorem formatChain_rfc3164_local : formatChain "%v%v %v: %v\n" 4 =
    [.formatter 0, .formatter 1, .literal " ", .formatter 2, .literal ": ", .formatter 3, .literal "\n"] := by
  decide

set_option maxRecDepth 4000 in
theorem formatChain_rfc5424 : formatChain "%v%v %v %v %v %v %v [%v] %v%v\n" 10 =
    [.formatter 0, .formatter 1, .literal " ", .formatter 2, .literal " ", .formatter 3, .literal " ",
      .formatter 4, .literal " ", .formatter 5, .literal " ", .formatter 6, .literal " [", .formatter 7,
      .literal "] ", .formatter 8, .formatter 9, .literal "\n"] := by decide

section

variable (lib : Lib V) (host : Host V) (facility : Nat) (app : String) (e : Event V)

theorem syslogRecord_remote (msgFormatter : Option (Formatter V)) :
    syslogRecord lib host facility app false msgFormatter e =
      priFormatter facility e ++ Time host.clock RFC3339 e ++ encode " " ++ Hostname host.hostname e ++
        encode " " ++ procIDFormatter app host.pid e ++ encode ": " ++ (msgFormatter.getD (HumanMessage lib)) e ++
        [10] := by
  simp only [syslogRecord, Bool.false_eq_true, if_false, formatf_eq, List.length_cons, List.length_nil,
    Nat.reduceAdd, formatChain_rfc3164]
  simp only [List.flatMap_cons, List.flatMap_nil, Link.run, List.getElem?_cons_zero, List.getElem?_cons_succ,
    List.append_assoc, List.append_nil]
  rfl

theorem syslogRecord_local (msgFormatter : Option (Formatter V)) :
    syslogRecord lib host facility app true msgFormatter e =
      priFormatter facility e ++ Time host.clock Stamp e ++ encode " " ++ procIDFormatter app host.pid e ++
        encode ": " ++ (msgFormatter.getD (HumanMessage lib)) e ++ [10] := by
  simp only [syslogRecord, if_true, formatf_eq, List.length_cons, List.length_nil, Nat.reduceAdd,
    formatChain_rfc3164_local]
  simp only [List.flatMap_cons, List.flatMap_nil, Link.run, List.getElem?_cons_zero, List.getElem?_cons_succ,
    List.append_assoc, List.append_nil]
  rfl

theorem structuredFormatter_eq (msgFormatter structFormatter : Option (Formatter V)) (ID : String)
    (writeBom : Bool) :
    structuredFormatter lib host facility app msgFormatter structFormatter ID writeBom e =
      priFormatter facility e ++ encode rfc5424Version ++ encode " " ++ Time host.clock rfc5424Time e ++
        encode " " ++ FQDN host.fqdn e ++ encode " " ++ encode app ++ encode " " ++
        procIDFormatter app host.pid e ++ encode " " ++ encode syslogNil ++ encode " [" ++
        Join " " [Literal (if ID = "" then ourID else ID), structFormatter.getD (StructuredContext lib)] e ++
        encode "] " ++ (if writeBom then formatBOM else Literal "") e ++
        (msgFormatter.getD (HumanMessage lib)) e ++ [10] := by
  simp only [structuredFormatter, formatf_eq, List.length_cons, List.length_nil, Nat.reduceAdd,
    formatChain_rfc5424]
  simp only [List.flatMap_cons, List.flatMap_nil, Link.run, List.getElem?_cons_zero, List.getElem?_cons_succ,
    List.append_assoc, List.append_nil]
  rfl

end

/-! ## Pieces without a newline -/

theorem digitChar_ne_newline (d : Nat) : Nat.digitChar d ≠ '\n' := by
  by_cases hd : d < 16
  · interval_cases d <;> decide
  · rw [Nat.digitChar]
    simp (disch := omega) only [if_neg]
    decide

theorem newline_not_mem_toDigitsCore (base : Nat) :
    ∀ fuel n (ds : List Char), '\n' ∉ ds → '\n' ∉ Nat.toDigitsCore base fuel n ds
  | 0, _, _, h => h
  | fuel + 1, n, ds, h => by
    have hd : '\n' ∉ Nat.digitChar (n % base) :: ds :=
      List.not_mem_cons_of_ne_of_not_mem (digitChar_ne_newline _).symm h
    unfold Nat.toDigitsCore
    dsimp only
    split
    exacts [hd, newline_not_mem_toDigitsCore base fuel _ _ hd]

/-- A number in decimal writes no newline. -/
theorem newline_not_mem_toString (n : Nat) : '\n' ∉ (toString n).data :=
  newline_not_mem_toDigitsCore 10 _ n [] (List.not_mem_nil _)

theorem mem_intercalate {α : Type} {a : α} {sep : List α} (hs : a ∉ sep) :
    ∀ {xs : List (List α)}, a ∈ sep.intercalate xs ↔ ∃ x ∈ xs, a ∈ x
  | [] => by simp [List.intercalate]
  | [x] => by simp [List.intercalate]
  | x :: y :: ys => by
    rw [intercalate_cons_cons, List.mem_append, List.mem_append, mem_intercalate hs]
    simp [hs]

theorem priFormatter_no_newline (facility : Nat) (e : Event V) : 10 ∉ priFormatter facility e := by
  unfold priFormatter
  split
  · simp only [newline_mem_encode, String.data_append, List.mem_append, not_or]
    exact ⟨⟨by decide, newline_not_mem_toString _⟩, by decide⟩
  · exact List.not_mem_nil _

theorem procIDFormatter_no_newline {app : String} (happ : '\n' ∉ app.data) (pid : Nat) (e : Event V) :
    10 ∉ procIDFormatter app pid e := by
  simp only [procIDFormatter, Literal, newline_mem_encode, String.data_append, List.mem_append, not_or]
  exact ⟨⟨⟨happ, by decide⟩, newline_not_mem_toString _⟩, by decide⟩

theorem hostname_no_newline {hostname : Option String} (h : ∀ name ∈ hostname, '\n' ∉ name.data)
    (e : Event V) : 10 ∉ Hostname hostname e := by
  rw [Hostname, newline_mem_encode]
  cases hostname with
  | some name => exact h name rfl
  | none => decide

theorem fqdn_no_newline {output : Option (List UInt8)} (h : ∀ out ∈ output, 10 ∉ trimSpace out)
    (e : Event V) : 10 ∉ FQDN output e := by
  cases output with
  | some out => exact h out rfl
  | none => exact (by decide : (10 : UInt8) ∉ encode "unknown")

/-- `Join` writes a newline only where one of its formatters does. -/
theorem newline_mem_join {sep : String} {formatters : List (Formatter V)} {e : Event V}
    (hsep : '\n' ∉ sep.data) : 10 ∈ Join sep formatters e ↔ ∃ f ∈ formatters, 10 ∈ f e := by
  rw [join_eq_intercalate, mem_intercalate (by rwa [newline_mem_encode])]
  constructor
  · rintro ⟨x, hx, h⟩
    obtain ⟨f, hf, rfl⟩ := List.mem_map.1 (List.mem_of_mem_filter hx)
    exact ⟨f, hf, h⟩
  · rintro ⟨f, hf, h⟩
    exact ⟨f e, List.mem_filter.2 ⟨List.mem_map_of_mem _ hf, decide_eq_true (List.ne_nil_of_mem h)⟩, h⟩

/-- A key `validStructuredKey` accepts holds no rune up to `' '`. -/
theorem newline_not_mem_of_valid {name : String} (h : validStructuredKey name = true) : '\n' ∉ name.data := by
  unfold validStructuredKey at h
  split_ifs at h
  intro hn
  have := List.all_eq_true.1 h '\n' hn
  simp at this

/-- `writeStructuredValue` keeps a newline as it is. -/
theorem newline_mem_escape {cs : List Char} : '\n' ∈ cs.flatMap escapeStructured ↔ '\n' ∈ cs := by
  simp only [List.mem_flatMap]
  constructor
  · rintro ⟨r, hr, hn⟩
    unfold escapeStructured at hn
    split_ifs at hn
    · exact absurd hn (by decide)
    · exact absurd hn (by decide)
    · exact absurd hn (by decide)
    · exact List.mem_singleton.1 hn ▸ hr
  · exact fun h => ⟨'\n', h, by decide⟩

theorem validStructuredKey_of_mem {lib : Lib V} {c : Context V} {p : String × String}
    (hp : p ∈ structuredPairs lib c) : validStructuredKey p.1 = true := by
  obtain ⟨kv, hkv, rfl⟩ := List.mem_map.1 hp
  exact (List.mem_filter.1 hkv).2

theorem newline_mem_sdParam {key : String} (hk : validStructuredKey key = true) (value : String) :
    '\n' ∈ sdParam key value ↔ '\n' ∈ value.data := by
  simp [sdParam, -List.mem_flatMap, newline_mem_escape, newline_not_mem_of_valid hk]

/-- `StructuredContext` writes a newline exactly where the text of a value it
writes holds one. -/
theorem newline_mem_structuredContext (lib : Lib V) (e : Event V) :
    10 ∈ StructuredContext lib e ↔ ∃ p ∈ structuredPairs lib e.context, '\n' ∈ p.2.data := by
  rw [structuredContext_eq, newline_mem_encode]
  refine (mem_intercalate (by decide)).trans ⟨?_, ?_⟩
  · rintro ⟨_, hx, hn⟩
    obtain ⟨p, hp, rfl⟩ := List.mem_map.1 hx
    exact ⟨p, hp, (newline_mem_sdParam (validStructuredKey_of_mem hp) _).1 hn⟩
  · rintro ⟨p, hp, hn⟩
    exact ⟨_, List.mem_map_of_mem _ hp, (newline_mem_sdParam (validStructuredKey_of_mem hp) _).2 hn⟩

/-! ## Lines -/

/-- A record on a stream: it ends with `"\n"`, and holds no other. -/
def OneLine (bytes : List UInt8) : Prop := bytes.getLast? = some 10 ∧ bytes.count 10 = 1

instance : DecidablePred OneLine := fun _ => inferInstanceAs (Decidable (_ ∧ _))

/-- A rendering that ends with `"\n"` is one line exactly when the rest holds none. -/
theorem oneLine_append_iff {x : List UInt8} : OneLine (x ++ [10]) ↔ 10 ∉ x := by
  simp only [OneLine, List.getLast?_concat, List.count_append, List.count_singleton_self, true_and,
    ← List.count_eq_zero]
  omega

/-- Truncating a line keeps it a line exactly when it fits. -/
theorem oneLine_truncate {f : Formatter V} {e : Event V} {x : List UInt8} (hf : f e = x ++ [10]) (h : 10 ∉ x)
    (n : Nat) : OneLine (Truncate f n e) ↔ (f e).length ≤ n := by
  simp only [Truncate, hf, List.length_append, List.length_singleton]
  split_ifs with hn
  · refine iff_of_false (fun hl => ?_) (by omega)
    rw [List.take_append_of_le_length (by omega)] at hl
    exact absurd (List.count_eq_zero.2 fun hm => h (List.mem_of_mem_take hm)) (by rw [hl.2]; decide)
  · exact iff_of_true (oneLine_append_iff.2 h) (by omega)

section

variable (lib : Lib V) (host : Host V) (facility : Nat) (app : String) (e : Event V)
  (happ : '\n' ∉ app.data) (hclock : ∀ layout, '\n' ∉ layout.data → '\n' ∉ (host.clock e layout).data)

include happ hclock

/-- An RFC 3164 record, before `Truncate`, is a line. -/
theorem syslogRecord_line (hhost : ∀ name ∈ host.hostname, '\n' ∉ name.data) (isLocal : Bool) :
    ∃ x, syslogRecord lib host facility app isLocal none e = x ++ [10] ∧ 10 ∉ x := by
  have hmsg := humanMessage_no_newline lib e
  have hpri := priFormatter_no_newline facility e
  have hpid := procIDFormatter_no_newline happ host.pid e
  cases isLocal with
  | false =>
    refine ⟨_, syslogRecord_remote lib host facility app e none, ?_⟩
    simp [Time, hpri, hclock _ (by decide : '\n' ∉ RFC3339.data), hostname_no_newline hhost e, hpid, hmsg]
  | true =>
    refine ⟨_, syslogRecord_local lib host facility app e none, ?_⟩
    simp [Time, hpri, hclock _ (by decide : '\n' ∉ Stamp.data), hpid, hmsg]

/-- An RFC 5424 record ends with `"\n"`, and holds another exactly where the
text of a value `StructuredContext` writes does. -/
theorem structuredFormatter_line (hfqdn : ∀ out ∈ host.fqdn, 10 ∉ trimSpace out) (ID : String)
    (hID : '\n' ∉ ID.data) (writeBom : Bool) :
    OneLine (structuredFormatter lib host facility app none none ID writeBom e) ↔
      ∀ p ∈ structuredPairs lib e.context, '\n' ∉ p.2.data := by
  have hID' : 10 ∉ Literal (if ID = "" then ourID else ID) e := by
    rw [Literal, newline_mem_encode]
    split_ifs
    exacts [by decide, hID]
  have hjoin : 10 ∈ Join " " [Literal (if ID = "" then ourID else ID), StructuredContext lib] e ↔
      ∃ p ∈ structuredPairs lib e.context, '\n' ∈ p.2.data := by
    rw [newline_mem_join (by decide), ← newline_mem_structuredContext]
    simp [hID']
  have hbom : 10 ∉ (if writeBom then formatBOM else Literal "") e := by
    split_ifs
    exacts [(by decide : (10 : UInt8) ∉ [0xef, 0xbb, 0xbf]), List.not_mem_nil _]
  rw [structuredFormatter_eq, oneLine_append_iff]
  simp [Time, hjoin, priFormatter_no_newline, hclock _ (by decide : '\n' ∉ rfc5424Time.data), fqdn_no_newline hfqdn,
    happ, procIDFormatter_no_newline happ, hbom, humanMessage_no_newline, rfc5424Version, syslogNil]

end

/-! ## One record per line -/

/-- Every RFC 3164 record is one line before `Truncate(…, 1024)`, and stays one
exactly when it fits in 1024 bytes; an RFC 5424 record is one line exactly when
no value `StructuredContext` writes has a newline in its text. -/
theorem syslog_records_one_line (lib : Lib V) (host : Host V) (facility : Nat) (app : String) (e : Event V)
    (happ : '\n' ∉ app.data) (hclock : ∀ layout, '\n' ∉ layout.data → '\n' ∉ (host.clock e layout).data)
    (hhost : ∀ name ∈ host.hostname, '\n' ∉ name.data) (hfqdn : ∀ out ∈ host.fqdn, 10 ∉ trimSpace out) :
    (∀ isLocal, OneLine (syslogRecord lib host facility app isLocal none e) ∧
      (OneLine (syslogFormatter lib host facility app isLocal none e) ↔
        (syslogRecord lib host facility app isLocal none e).length ≤ 1024)) ∧
    ∀ ID, '\n' ∉ ID.data → ∀ writeBom,
      (OneLine (structuredFormatter lib host facility app none none ID writeBom e) ↔
        ∀ p ∈ structuredPairs lib e.context, '\n' ∉ p.2.data) := by
  refine ⟨fun isLocal => ?_, structuredFormatter_line lib host facility app e happ hclock hfqdn⟩
  obtain ⟨x, hx, hnl⟩ := syslogRecord_line lib host facility app e happ hclock hhost isLocal
  exact ⟨hx ▸ oneLine_append_iff.2 hnl, oneLine_truncate hx hnl 1024⟩

/-- Values that are strings: `fmt.Sprint` of one is the string; `isGraphic`
is printable ASCII. -/
def stringLib : Lib String := ⟨id, some, fun s => "\"" ++ s ++ "\"", fun c => 32 ≤ c.toNat && c.toNat < 127⟩

/-- A host whose clock renders the layout itself, the reference time, and whose
`hostname -f` prints a name and a newline. -/
def demoHost : Host String := ⟨fun _ layout => layout, some "host", some (encode "host.example\n"), 1⟩

/-- An INFO event `"hi"` with an empty context. -/
def demoEvent : Event String := ⟨INFO, "hi", none, Context.NewContext "app"⟩

/-- The same event, with the context value `k = "a\nb"`. -/
def newlineEvent : Event String := ⟨INFO, "hi", none, (Context.NewContext "app").WithValue "k" "a\nb"⟩

theorem demoHost_clock (e : Event String) :
    ∀ layout, '\n' ∉ layout.data → '\n' ∉ (demoHost.clock e layout).data := fun _ h => h

theorem demoHost_hostname : ∀ name ∈ demoHost.hostname, '\n' ∉ name.data := by
  rintro _ ⟨⟩
  decide

theorem demoHost_fqdn : ∀ out ∈ demoHost.fqdn, 10 ∉ trimSpace out := by
  rintro _ ⟨⟩
  decide

theorem syslog_records_one_line_demo :
    '\n' ∉ "app".data ∧ OneLine (syslogFormatter stringLib demoHost 1 "app" false none demoEvent) ∧
      OneLine (structuredFormatter stringLib demoHost 1 "app" none none "" true demoEvent) :=
  have h := syslog_records_one_line stringLib demoHost 1 "app" demoEvent (by decide) (demoHost_clock demoEvent)
    demoHost_hostname demoHost_fqdn
  have hctx : HumanContext stringLib demoEvent = [] := humanContext_of_each_nil stringLib rfl
  ⟨by decide, ((h.1 false).2).2 (by
      rw [syslogRecord_remote, Option.getD_none, HumanMessage, Escape, Trim, join_eq_intercalate, List.map_cons,
        List.map_cons, List.map_nil, hctx]
      decide),
    (h.2 "" (by decide) true).2 (by decide)⟩

/-- An app name of 1100 runes. -/
def longApp : String := ⟨List.replicate 1100 'a'⟩

/-- Both limits are reached with an app, host name and ID free of newlines: the
RFC 3164 record of a long app name loses its `"\n"` to `Truncate`, and a
context value with a newline splits the RFC 5424 record. -/
theorem syslog_records_split :
    '\n' ∉ longApp.data ∧ (∀ name ∈ demoHost.hostname, '\n' ∉ name.data) ∧
      (∀ out ∈ demoHost.fqdn, 10 ∉ trimSpace out) ∧
      (∀ e layout, '\n' ∉ layout.data → '\n' ∉ (demoHost.clock e layout).data) ∧
      ¬ OneLine (syslogFormatter stringLib demoHost 1 longApp false none demoEvent) ∧
      ¬ OneLine (structuredFormatter stringLib demoHost 1 "app" none none "" false newlineEvent) := by
  have hlong : '\n' ∉ longApp.data := fun h => absurd (List.eq_of_mem_replicate h) (by decide)
  refine ⟨hlong, demoHost_hostname, demoHost_fqdn, demoHost_clock, ?_, ?_⟩
  · obtain ⟨x, hx, hnl⟩ := syslogRecord_line stringLib demoHost 1 longApp demoEvent hlong (demoHost_clock demoEvent)
      demoHost_hostname false
    have hlen : 1100 ≤ (encode longApp).length := by
      simpa only [List.length_replicate] using length_le_encode (List.replicate 1100 'a')
    rw [syslogFormatter, oneLine_truncate hx hnl, syslogRecord_remote]
    simp only [procIDFormatter, Literal, encode_append, List.length_append]
    omega
  · rw [structuredFormatter_line stringLib demoHost 1 "app" newlineEvent (by decide) (demoHost_clock newlineEvent)
      demoHost_fqdn "" (by decide) false]
    decide

end Cue.Collectors
