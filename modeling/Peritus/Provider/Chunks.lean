import Peritus.Provider.Framing

/-!
Framing does not depend on how a stream is cut into chunks: whichever chunks a parser
is given, its items are those of the frames of the whole stream.
-/

namespace Peritus.Provider.Chunks

open Checked LineStream Framing

/-! ### Bytes of a line -/

theorem length_of_fromUtf8 {bytes : List UInt8} {text : String}
    (htext : fromUtf8 bytes = some text) : text.utf8ByteSize = bytes.length := by
  rw [fromUtf8, String.fromUTF8?] at htext
  split at htext
  · cases htext
    rfl
  · cases htext

theorem utf8ByteSize_toList (text : String) :
    text.utf8ByteSize = String.utf8Len text.toList := by
  rw [← String.utf8ByteSize_ofList, String.ofList_toList]

theorem utf8Len_stripSpace (text : List Char) :
    String.utf8Len (stripSpace text) ≤ String.utf8Len text := by
  unfold stripSpace
  split
  · simp
  · exact Nat.le_refl _

/-- A name and a value are no longer than their line. -/
theorem length_splitField (line : List Char) :
    (splitField line).1.utf8ByteSize + (splitField line).2.utf8ByteSize ≤
      String.utf8Len line := by
  unfold splitField
  cases hfind : line.findIdx? (fun char => decide (char = ':')) with
  | none => simp [String.utf8ByteSize_ofList]
  | some position =>
      have hline : String.utf8Len line = String.utf8Len (line.take position) +
          String.utf8Len (line.drop position) := by
        rw [← String.utf8Len_append, List.take_append_drop]
      have hdrop : String.utf8Len (line.drop (position + 1)) ≤
          String.utf8Len (line.drop position) := by
        apply String.utf8Len_le_of_sublist
        rw [← List.drop_drop]
        exact List.drop_sublist 1 _
      have hstrip := utf8Len_stripSpace (line.drop (position + 1))
      simp only [String.utf8ByteSize_ofList]
      omega

theorem length_stripCarriageReturn (line : List UInt8) :
    (stripCarriageReturn line).length ≤ line.length := by
  unfold stripCarriageReturn
  split
  · simp
  · exact Nat.le_refl _

/-- What a line gains may reveal its carriage return as content, never less. -/
theorem length_stripCarriageReturn_append (line more : List UInt8) :
    (stripCarriageReturn line).length ≤
      (stripCarriageReturn (line ++ more)).length := by
  cases more with
  | nil => rw [List.append_nil]
  | cons byte more =>
      have hline := length_stripCarriageReturn line
      have hall : (line ++ byte :: more).length ≤
          (stripCarriageReturn (line ++ byte :: more)).length + 1 := by
        unfold stripCarriageReturn
        split
        · rw [List.length_dropLast]
          omega
        · exact Nat.le_succ _
      simp only [List.length_append, List.length_cons] at hall
      omega

/-! ### Frames of a stream -/

/-- The lines of each frame of a stream: an empty line ends a frame. -/
def framesOf (stream : List UInt8) : List (List (List UInt8)) :=
  ((linesOf lineFeed stream).map stripCarriageReturn).splitOn []

inductive SseLine
  | comment (text : String)
  | field (name value : String)

def readLine (line : List UInt8) : Option SseLine :=
  (fromUtf8 line).map fun text =>
    match text.toList with
    | ':' :: comment => .comment (String.ofList (stripSpace comment))
    | chars => .field (splitField chars).1 (splitField chars).2

def commentOf (line : List UInt8) : Option String :=
  match readLine line with
  | some (.comment text) => some text
  | _ => none

def valueOf (field : String) (line : List UInt8) : Option String :=
  match readLine line with
  | some (.field name value) => if name = field then some value else none
  | _ => none

/-- The bytes a line adds to its frame's; those of comments are not counted. -/
def countedBytes (line : List UInt8) : Nat :=
  match readLine line with
  | some (.field _ _) => line.length
  | _ => 0

/-- The values of a field in a frame, in order. -/
def valuesOf (field : String) (frame : List (List UInt8)) : List String :=
  frame.filterMap (valueOf field)

def identifiersOf (frame : List (List UInt8)) : List String :=
  (valuesOf "id" frame).filter fun value => decide ('\x00' ∉ value.toList)

def frameBytesOf (frame : List (List UInt8)) : Nat :=
  (frame.map countedBytes).sum

/-- What a frame says: its last event and id, and its data joined by line feeds. -/
def eventsOf (frame : List (List UInt8)) : List SseItem :=
  if valuesOf "data" frame = [] then []
  else [frameItem (valuesOf "event" frame).getLast? (valuesOf "data" frame)
    (identifiersOf frame).getLast?]

def commentsOf (frame : List (List UInt8)) : List SseItem :=
  (frame.filterMap commentOf).map .comment

def itemsOf (frame : List (List UInt8)) : List SseItem :=
  commentsOf frame ++ eventsOf frame

/-- A line that may stand in a frame: text, and within the bound if a comment. -/
def LineAccepted (limits : FramingLimits) (line : List UInt8) : Prop :=
  (readLine line).isSome ∧
    ((commentOf line).isSome → line.length ≤ limits.maxFrameBytes)

def FrameAccepted (limits : FramingLimits) (frame : List (List UInt8)) : Prop :=
  (∀ line ∈ frame, LineAccepted limits line) ∧
    frameBytesOf frame ≤ limits.maxFrameBytes

def SseAccepted (limits : FramingLimits) (stream : List UInt8) : Prop :=
  ∀ frame ∈ framesOf stream, FrameAccepted limits frame

def sseItemsOf (stream : List UInt8) : List SseItem :=
  (framesOf stream).flatMap itemsOf

/-! ### Reading a frame -/

/-- What the parser has kept of the frame whose lines it has read. -/
def fieldsOf (frame : List (List UInt8)) : SseFields :=
  ⟨(valuesOf "event" frame).getLast?, valuesOf "data" frame,
    (identifiersOf frame).getLast?, frameBytesOf frame⟩

section Frames

variable {limits : FramingLimits} {fields : SseFields} {line : List UInt8}
  {frame more : List (List UInt8)}

theorem fieldsOf_nil : fieldsOf [] = resetFrame := rfl

theorem commentsOf_append :
    commentsOf (frame ++ more) = commentsOf frame ++ commentsOf more := by
  simp [commentsOf]

theorem valuesOf_append {field : String} :
    valuesOf field (frame ++ more) = valuesOf field frame ++ valuesOf field more := by
  simp [valuesOf]

theorem frameBytesOf_append :
    frameBytesOf (frame ++ more) = frameBytesOf frame + frameBytesOf more := by
  simp [frameBytesOf]

theorem frameAccepted_nil : FrameAccepted limits [] :=
  ⟨List.forall_mem_nil _, Nat.zero_le _⟩

theorem FrameAccepted.of_append (hframe : FrameAccepted limits (frame ++ more)) :
    FrameAccepted limits frame := by
  obtain ⟨hlines, hbytes⟩ := hframe
  rw [frameBytesOf_append] at hbytes
  refine ⟨fun line hline => hlines line (List.mem_append_left _ hline), ?_⟩
  exact Nat.le_trans (Nat.le_add_right _ _) hbytes

/-- The three kinds of a line that is not empty. -/
theorem processLine_cases (limits : FramingLimits) (fields : SseFields)
    (hne : line ≠ []) :
    (readLine line = none ∧
      ∃ error, processLine limits fields line = .error error) ∨
    (∃ text, readLine line = some (.comment text) ∧
      processLine limits fields line = (do
        ensure (decide (line.length ≤ limits.maxFrameBytes))
          (limit "SSE comment exceeds its frame byte bound")
        return (fields, [.comment text]))) ∨
    ∃ name value, readLine line = some (.field name value) ∧
      name.utf8ByteSize + value.utf8ByteSize ≤ line.length ∧
      processLine limits fields line = (do
        let counted ← addFrameBytes limits fields line.length
        return (addField counted name value, [])) := by
  cases htext : fromUtf8 line with
  | none =>
      refine .inl ⟨by simp [readLine, htext],
        malformed "SSE line is not valid UTF-8", ?_⟩
      simp only [processLine, htext]
  | some text =>
      have hlength := length_of_fromUtf8 htext
      rw [utf8ByteSize_toList] at hlength
      cases hchars : text.toList with
      | nil =>
          rw [hchars] at hlength
          exact absurd (List.length_eq_zero_iff.mp hlength.symm) hne
      | cons char rest =>
          by_cases hcolon : char = ':'
          · subst hcolon
            refine .inr (.inl ⟨String.ofList (stripSpace rest), ?_, ?_⟩)
            · simp only [readLine, htext, hchars, Option.map_some]
            · simp only [processLine, htext, hchars]
          · refine .inr (.inr ⟨(splitField (char :: rest)).1,
              (splitField (char :: rest)).2, ?_, ?_, ?_⟩)
            · simp [readLine, htext, hchars, hcolon]
            · rw [← hlength, hchars]
              exact length_splitField _
            · simp [processLine, htext, hchars, hcolon]

theorem addFrameBytes_eq (limits : FramingLimits) (fields : SseFields)
    (bytes : Nat) :
    addFrameBytes limits fields bytes = .ok
      { fields with frameBytes := fields.frameBytes + bytes } ∧
      fields.frameBytes + bytes ≤ limits.maxFrameBytes ∨
    (∃ error, addFrameBytes limits fields bytes = .error error) ∧
      ¬ fields.frameBytes + bytes ≤ limits.maxFrameBytes := by
  have hconsistent := limits.consistent
  simp only [productionMaxFrameBytes] at hconsistent
  by_cases hfits : fields.frameBytes + bytes ≤ limits.maxFrameBytes
  · have hsize : fields.frameBytes + bytes ≤ usizeMax := by
      rw [usizeMax]
      omega
    refine .inl ⟨?_, hfits⟩
    simp only [addFrameBytes, decide_eq_true hsize, decide_eq_true hfits, ensure_true,
      ok_bind, pure, Except.pure]
  · refine .inr ⟨?_, hfits⟩
    by_cases hsize : fields.frameBytes + bytes ≤ usizeMax
    · refine ⟨limit "SSE frame exceeds its byte bound", ?_⟩
      simp only [addFrameBytes, decide_eq_true hsize, decide_eq_false hfits,
        ensure_true, ensure_false, ok_bind, error_bind]
    · refine ⟨limit "SSE frame byte count overflowed", ?_⟩
      simp only [addFrameBytes, decide_eq_false hsize, ensure_false, error_bind]

theorem addField_fieldsOf {name value : String}
    (hline : readLine line = some (.field name value)) :
    addField { fieldsOf frame with
        frameBytes := (fieldsOf frame).frameBytes + line.length } name value =
      fieldsOf (frame ++ [line]) := by
  have hvalues : ∀ field, valuesOf field [line] =
      if name = field then [value] else [] := by
    intro field
    by_cases hname : name = field <;> simp [valuesOf, valueOf, hline, hname]
  have hbytes : frameBytesOf [line] = line.length := by
    simp [frameBytesOf, countedBytes, hline]
  simp only [fieldsOf, identifiersOf, valuesOf_append, frameBytesOf_append, hvalues,
    hbytes, addField]
  by_cases hevent : name = "event"
  · simp [hevent]
  · by_cases hdata : name = "data"
    · simp [hdata]
    · by_cases hid : name = "id"
      · by_cases hnul : '\x00' ∈ value.toList <;> simp [hid, hnul]
      · simp [hevent, hdata, hid]

/-- One more line of a frame: read as the frame's, or rejected with it. -/
theorem processLine_fieldsOf (hne : line ≠ []) (hframe : FrameAccepted limits frame) :
    FrameAccepted limits (frame ++ [line]) ∧
      processLine limits (fieldsOf frame) line =
        .ok (fieldsOf (frame ++ [line]), commentsOf [line]) ∨
    ¬ FrameAccepted limits (frame ++ [line]) ∧
      ∃ error, processLine limits (fieldsOf frame) line = .error error := by
  obtain ⟨hlines, hbytes⟩ := hframe
  have haccepted : FrameAccepted limits (frame ++ [line]) ↔
      LineAccepted limits line ∧
        frameBytesOf frame + countedBytes line ≤ limits.maxFrameBytes := by
    simp only [FrameAccepted, frameBytesOf_append, List.forall_mem_append,
      List.forall_mem_singleton]
    constructor
    · rintro ⟨⟨_, hline⟩, hsum⟩
      exact ⟨hline, by simpa [frameBytesOf] using hsum⟩
    · rintro ⟨hline, hsum⟩
      exact ⟨⟨hlines, hline⟩, by simpa [frameBytesOf] using hsum⟩
  rw [haccepted]
  rcases processLine_cases limits (fieldsOf frame) hne with
    ⟨hread, hprocess⟩ | ⟨text, hread, hprocess⟩ | ⟨name, value, hread, _, hprocess⟩
  · refine .inr ⟨?_, hprocess⟩
    rintro ⟨⟨hsome, _⟩, _⟩
    rw [hread] at hsome
    cases hsome
  · have hcomments : commentsOf [line] = [.comment text] := by
      simp [commentsOf, commentOf, hread]
    have hfields : fieldsOf (frame ++ [line]) = fieldsOf frame := by
      simp [fieldsOf, identifiersOf, valuesOf, valueOf, frameBytesOf, countedBytes,
        hread]
    by_cases hlength : line.length ≤ limits.maxFrameBytes
    · refine .inl ⟨⟨⟨by simp [hread], fun _ => hlength⟩, ?_⟩, ?_⟩
      · simpa [countedBytes, hread] using hbytes
      · rw [hprocess, hcomments, hfields, decide_eq_true hlength]
        rfl
    · refine .inr ⟨?_, ?_⟩
      · rintro ⟨⟨_, hcomment⟩, _⟩
        exact hlength (hcomment (by simp [commentOf, hread]))
      · rw [hprocess, decide_eq_false hlength]
        exact ⟨_, rfl⟩
  · have hcomments : commentsOf [line] = [] := by
      simp [commentsOf, commentOf, hread]
    have hcounted : countedBytes line = line.length := by
      simp [countedBytes, hread]
    rw [hprocess, hcomments, hcounted]
    rcases addFrameBytes_eq limits (fieldsOf frame)
      line.length with ⟨hadd, hsum⟩ | ⟨⟨error, hadd⟩, hsum⟩
    · refine .inl ⟨⟨⟨by simp [hread], ?_⟩, hsum⟩, ?_⟩
      · simp [commentOf, hread]
      · rw [hadd, ok_bind, addField_fieldsOf hread]
        rfl
    · refine .inr ⟨fun haccepted => hsum haccepted.2, error, ?_⟩
      rw [hadd, error_bind]

/-- The data of a frame is shorter than its fields. -/
theorem length_data_le (hne : ∀ line ∈ frame, line ≠ []) :
    ((valuesOf "data" frame).map (·.utf8ByteSize + 1)).sum ≤ frameBytesOf frame := by
  induction frame with
  | nil => exact Nat.le_refl _
  | cons line frame ih =>
      obtain ⟨hline, hframe⟩ := List.forall_mem_cons.mp hne
      have hrest := ih hframe
      simp only [valuesOf, frameBytesOf, List.map_cons, List.sum_cons,
        List.filterMap_cons] at hrest ⊢
      rcases processLine_cases ⟨1, 1, by decide⟩ resetFrame hline with
        ⟨hread, _⟩ | ⟨text, hread, _⟩ | ⟨name, value, hread, hlength, _⟩
      · simp only [valueOf, countedBytes, hread]
        omega
      · simp only [valueOf, countedBytes, hread]
        omega
      · by_cases hdata : name = "data"
        · subst hdata
          have hname : "data".utf8ByteSize = 4 := by decide
          simp only [valueOf, countedBytes, hread, if_pos, List.map_cons, List.sum_cons]
          omega
        · simp only [valueOf, countedBytes, hread, if_neg hdata]
          omega

theorem dataBytes_eq {lines : List String} {total : Nat}
    (hbound : total + (lines.map (·.utf8ByteSize + 1)).sum ≤ usizeMax) :
    dataBytes total lines = .ok (total + (lines.map (·.utf8ByteSize + 1)).sum) := by
  induction lines generalizing total with
  | nil => rfl
  | cons line lines ih =>
      simp only [List.map_cons, List.sum_cons] at hbound ⊢
      have hline : total + line.utf8ByteSize + 1 ≤ usizeMax := by omega
      rw [dataBytes, decide_eq_true hline, ensure_true, ok_bind, ih (by omega)]
      congr 1
      omega

/-- The end of a frame that was read. -/
theorem dispatch_fieldsOf (hframe : FrameAccepted limits frame)
    (hne : ∀ line ∈ frame, line ≠ []) :
    dispatch limits (fieldsOf frame) = .ok (resetFrame, eventsOf frame) := by
  have hconsistent := limits.consistent
  simp only [productionMaxFrameBytes] at hconsistent
  have hlength := Nat.le_trans (length_data_le hne) hframe.2
  by_cases hdata : valuesOf "data" frame = []
  · simp [dispatch, eventsOf, fieldsOf, hdata]
  · have hbytes : dataBytes 0 (fieldsOf frame).dataLines = .ok (0 +
        ((valuesOf "data" frame).map (·.utf8ByteSize + 1)).sum) := by
      apply dataBytes_eq
      change 0 + ((valuesOf "data" frame).map (·.utf8ByteSize + 1)).sum ≤ usizeMax
      rw [usizeMax]
      omega
    have hfits : 0 + ((valuesOf "data" frame).map (·.utf8ByteSize + 1)).sum - 1 ≤
        limits.maxFrameBytes := by
      omega
    have hlines : (fieldsOf frame).dataLines ≠ [] := hdata
    rw [dispatch, if_neg hlines, hbytes, ok_bind, decide_eq_true hfits, ensure_true,
      ok_bind, eventsOf, if_neg hdata]
    rfl

end Frames

/-! ### Reading a stream -/

section Streams

variable {limits : FramingLimits} {frame : List (List UInt8)}
  {lines : List (List UInt8)} {items : List SseItem}

theorem close_sseRules {fields : SseFields} {closing : List SseItem}
    (hdispatch : dispatch limits fields = .ok (resetFrame, closing)) :
    (sseRules limits).close fields = .ok closing := by
  change (dispatch limits fields >>= _) = _
  rw [hdispatch]
  rfl

/-- Lines after those of a frame: the frame goes on to the first that is empty. -/
theorem readLines_eq_ok_iff (hframe : FrameAccepted limits frame)
    (hne : ∀ line ∈ frame, line ≠ []) :
    (sseRules limits).readLines (fieldsOf frame) lines = .ok items ↔
      (∀ found ∈ (frame ++ lines.map stripCarriageReturn).splitOn [],
        FrameAccepted limits found) ∧
      commentsOf frame ++ items =
        ((frame ++ lines.map stripCarriageReturn).splitOn []).flatMap itemsOf := by
  have hnotMem : ∀ {found : List (List UInt8)},
      (∀ line ∈ found, line ≠ []) → [] ∉ found :=
    fun hfound hmem => hfound _ hmem rfl
  induction lines generalizing frame items with
  | nil =>
      rw [Rules.readLines_nil, close_sseRules (dispatch_fieldsOf hframe hne),
        List.map_nil, List.append_nil, List.splitOn_eq_singleton (hnotMem hne)]
      simp only [List.forall_mem_singleton, hframe, true_and, List.flatMap_cons,
        List.flatMap_nil, List.append_nil, itemsOf, List.append_cancel_left_eq,
        Except.ok.injEq]
      exact eq_comm
  | cons line lines ih =>
      have hprocess : (sseRules limits).process (fieldsOf frame) line =
          processLine limits (fieldsOf frame) (stripCarriageReturn line) := rfl
      rw [Rules.readLines_cons, hprocess, List.map_cons]
      by_cases hempty : stripCarriageReturn line = []
      · -- the frame ends here, and the next begins with nothing kept
        have hend : processLine limits (fieldsOf frame) [] =
            .ok (fieldsOf [], eventsOf frame) := by
          rw [fieldsOf_nil, ← dispatch_fieldsOf hframe hne]
          rfl
        rw [hempty, hend, ok_bind,
          List.splitOn_append_cons_self_of_not_mem (hnotMem hne)]
        simp only [bind_eq_ok_iff, pure_eq_ok_iff, List.forall_mem_cons, hframe,
          true_and, List.flatMap_cons]
        simp only [ih frameAccepted_nil (List.forall_mem_nil _), List.nil_append]
        constructor
        · rintro ⟨more, ⟨haccepted, hmore⟩, rfl⟩
          refine ⟨haccepted, ?_⟩
          rw [← hmore, itemsOf, List.append_assoc]
          rfl
        · rintro ⟨haccepted, hitems⟩
          rw [itemsOf, List.append_assoc, List.append_cancel_left_eq] at hitems
          exact ⟨_, ⟨haccepted, rfl⟩, hitems.symm⟩
      · have hline : ∀ found ∈ frame ++ [stripCarriageReturn line], found ≠ [] := by
          rw [List.forall_mem_append, List.forall_mem_singleton]
          exact ⟨hne, hempty⟩
        have hsplit : frame ++ stripCarriageReturn line ::
            lines.map stripCarriageReturn =
              (frame ++ [stripCarriageReturn line]) ++
                lines.map stripCarriageReturn := by
          simp
        rw [hsplit]
        rcases processLine_fieldsOf hempty hframe with
          ⟨haccepted, hread⟩ | ⟨hrejected, error, hread⟩
        · rw [hread, ok_bind]
          simp only [bind_eq_ok_iff, pure_eq_ok_iff, ih haccepted hline,
            commentsOf_append]
          constructor
          · rintro ⟨more, ⟨hall, hmore⟩, rfl⟩
            rw [← List.append_assoc]
            exact ⟨hall, hmore⟩
          · rintro ⟨hall, hitems⟩
            obtain ⟨more, pieces, hpieces⟩ := exists_splitOn
              (hnotMem hline) (lines.map stripCarriageReturn)
            have hfirst := hitems
            rw [hpieces, List.flatMap_cons, itemsOf, commentsOf_append,
              commentsOf_append, List.append_assoc, List.append_assoc,
              List.append_assoc, List.append_cancel_left_eq] at hfirst
            rw [hfirst] at hitems ⊢
            rw [← List.append_assoc] at hitems
            exact ⟨_, ⟨hall, hitems⟩, rfl⟩
        · rw [hread, error_bind]
          refine iff_of_false (by simp) ?_
          rintro ⟨hall, _⟩
          obtain ⟨more, pieces, hpieces⟩ := exists_splitOn
            (hnotMem hline) (lines.map stripCarriageReturn)
          rw [hpieces] at hall
          exact hrejected (hall _ List.mem_cons_self).of_append

theorem read_sseRules {stream : List UInt8} :
    (sseRules limits).read resetFrame stream = .ok items ↔
      SseAccepted limits stream ∧ items = sseItemsOf stream :=
  readLines_eq_ok_iff frameAccepted_nil (List.forall_mem_nil _)

theorem unterminatedTooLong_nil (limits : FramingLimits) :
    unterminatedTooLong limits [] = false := by
  rw [unterminatedTooLong, decide_eq_false_iff_not]
  exact Nat.not_lt_zero _

/-- An unfinished line is too long only if its frame could never be accepted. -/
theorem bounded_sseRules : (sseRules limits).Bounded where
  empty := unterminatedTooLong_nil limits
  rejected := by
    intro state line more hlong _
    have hlength := of_decide_eq_true hlong
    have hmore := length_stripCarriageReturn_append line more
    have hne : stripCarriageReturn (line ++ more) ≠ [] := by
      intro hempty
      rw [hempty, List.length_nil] at hmore
      omega
    change ∃ error, processLine limits state (stripCarriageReturn (line ++ more)) =
      .error error
    rcases processLine_cases limits state hne with
      ⟨_, herror⟩ | ⟨text, _, hprocess⟩ | ⟨name, value, _, _, hprocess⟩
    · exact herror
    · rw [hprocess, decide_eq_false (by omega)]
      exact ⟨_, rfl⟩
    · rw [hprocess]
      rcases addFrameBytes_eq limits state
        (stripCarriageReturn (line ++ more)).length with ⟨_, hsum⟩ | ⟨⟨error, hadd⟩, _⟩
      · omega
      · rw [hadd, error_bind]
        exact ⟨error, rfl⟩

/-! ### Records -/

/-- The records of a stream: its lines that are not empty. -/
def recordsOf (stream : List UInt8) : List (List UInt8) :=
  ((linesOf lineFeed stream).map stripCarriageReturn).filter (· ≠ [])

def RecordAccepted (limits : FramingLimits) (record : List UInt8) : Prop :=
  record.length ≤ limits.maxFrameBytes ∧ (fromUtf8 record).isSome

def NdjsonAccepted (limits : FramingLimits) (stream : List UInt8) : Prop :=
  ∀ record ∈ recordsOf stream, RecordAccepted limits record

def ndjsonFramesOf (stream : List UInt8) : List NdjsonFrame :=
  ((recordsOf stream).filterMap fromUtf8).map .mk

theorem parseLine_of_ne_nil (limits : FramingLimits) {line : List UInt8}
    (hne : line ≠ []) :
    (∃ text, RecordAccepted limits line ∧ fromUtf8 line = some text ∧
      parseLine limits line = .ok (some ⟨text⟩)) ∨
    (¬ RecordAccepted limits line ∧
      ∃ error, parseLine limits line = .error error) := by
  rw [parseLine, if_neg hne]
  by_cases hlength : line.length ≤ limits.maxFrameBytes
  · rw [decide_eq_true hlength, ensure_true, ok_bind]
    cases htext : fromUtf8 line with
    | none =>
        refine .inr ⟨?_, _, rfl⟩
        rintro ⟨_, hsome⟩
        rw [htext] at hsome
        cases hsome
    | some text => exact .inl ⟨text, ⟨hlength, by simp [htext]⟩, rfl, rfl⟩
  · rw [decide_eq_false hlength, ensure_false, error_bind]
    exact .inr ⟨fun haccepted => hlength haccepted.1, _, rfl⟩

theorem read_ndjsonRules {stream : List UInt8} {frames : List NdjsonFrame} :
    (ndjsonRules limits).read () stream = .ok frames ↔
      NdjsonAccepted limits stream ∧ frames = ndjsonFramesOf stream := by
  rw [Rules.read, NdjsonAccepted, ndjsonFramesOf, recordsOf]
  change (ndjsonRules limits).readLines () (linesOf lineFeed stream) = .ok frames ↔ _
  generalize linesOf lineFeed stream = lines
  induction lines generalizing frames with
  | nil =>
      rw [Rules.readLines_nil]
      change Except.ok [] = Except.ok frames ↔ _
      simp [eq_comm]
  | cons line lines ih =>
      have hprocess : (ndjsonRules limits).process () line = (do
          let frame ← parseLine limits (stripCarriageReturn line)
          return ((), frame.toList)) := rfl
      rw [Rules.readLines_cons, hprocess, List.map_cons]
      by_cases hempty : stripCarriageReturn line = []
      · rw [hempty, List.filter_cons_of_neg (by simp), ← ih, parseLine, if_pos rfl,
          ok_bind, pure_bind]
        simp only [Option.toList_none, List.nil_append, bind_pure]
      · rw [List.filter_cons_of_pos (by simpa using hempty)]
        rcases parseLine_of_ne_nil limits hempty with
          ⟨text, haccepted, htext, hparse⟩ | ⟨hrejected, error, hparse⟩
        · rw [hparse, ok_bind]
          simp only [pure_bind, Option.toList_some, bind_eq_ok_iff, pure_eq_ok_iff, ih,
            List.forall_mem_cons, haccepted, true_and,
            List.filterMap_cons_some htext, List.map_cons]
          constructor
          · rintro ⟨more, ⟨hall, rfl⟩, rfl⟩
            exact ⟨hall, rfl⟩
          · rintro ⟨hall, rfl⟩
            exact ⟨_, ⟨hall, rfl⟩, rfl⟩
        · rw [hparse, error_bind, error_bind]
          refine iff_of_false (by simp) ?_
          rintro ⟨hall, _⟩
          exact hrejected (hall _ List.mem_cons_self)

theorem bounded_ndjsonRules : (ndjsonRules limits).Bounded where
  empty := unterminatedTooLong_nil limits
  rejected := by
    intro state line more hlong _
    have hlength := of_decide_eq_true hlong
    have hmore := length_stripCarriageReturn_append line more
    have hne : stripCarriageReturn (line ++ more) ≠ [] := by
      intro hempty
      rw [hempty, List.length_nil] at hmore
      omega
    change ∃ error, (do
      let frame ← parseLine limits (stripCarriageReturn (line ++ more))
      return ((), frame.toList)) = .error error
    rcases parseLine_of_ne_nil limits hne with
      ⟨_, ⟨hfits, _⟩, _⟩ | ⟨_, error, herror⟩
    · omega
    · rw [herror, error_bind]
      exact ⟨error, rfl⟩

end Streams

/-! ### Chunks -/

theorem reserve_eq_ok {limits : FramingLimits} {length : Nat}
    (hlength : length ≤ limits.maxBufferBytes) : reserve limits length = .ok () := by
  have hconsistent := limits.consistent
  simp only [productionMaxBufferBytes] at hconsistent
  have hsize : length ≤ usizeMax := by
    rw [usizeMax]
    omega
  rw [reserve, decide_eq_true hsize, decide_eq_true hlength]
  rfl

/-- No push brings the bytes kept beyond the buffer's bound. -/
def SseFits (limits : FramingLimits) (chunks : List (List UInt8)) : Prop :=
  (sseRules limits).Fits limits.maxBufferBytes (SseParser.new limits).parser chunks

def NdjsonFits (limits : FramingLimits) (chunks : List (List UInt8)) : Prop :=
  (ndjsonRules limits).Fits limits.maxBufferBytes (NdjsonParser.new limits).parser
    chunks

section Chunks

variable {limits : FramingLimits} {chunks : List (List UInt8)}

theorem run_sseParser (parser : Parser UInt8 SseFields) :
    SseParser.run ⟨limits, parser⟩ chunks = (sseRules limits).run parser chunks := by
  induction chunks generalizing parser with
  | nil =>
      simp only [SseParser.run, SseParser.finish, Rules.run, bind_assoc, pure_bind]
  | cons chunk chunks ih =>
      simp only [SseParser.run, SseParser.push, Rules.run, bind_assoc, pure_bind, ih]

theorem run_ndjsonParser (parser : Parser UInt8 Unit) :
    NdjsonParser.run ⟨limits, parser⟩ chunks =
      (ndjsonRules limits).run parser chunks := by
  induction chunks generalizing parser with
  | nil =>
      simp only [NdjsonParser.run, NdjsonParser.finish, Rules.run, bind_assoc,
        pure_bind]
  | cons chunk chunks ih =>
      simp only [NdjsonParser.run, NdjsonParser.push, Rules.run, bind_assoc,
        pure_bind, ih]

theorem run_sse_eq_ok_iff (hfits : SseFits limits chunks) {items : List SseItem} :
    (SseParser.new limits).run chunks = .ok items ↔
      SseAccepted limits chunks.flatten ∧ items = sseItemsOf chunks.flatten := by
  rw [SseParser.new, run_sseParser, ← read_sseRules]
  exact Rules.run_eq_ok_iff bounded_sseRules List.not_mem_nil
    (fun _ hlength => reserve_eq_ok hlength) hfits

theorem run_ndjson_eq_ok_iff (hfits : NdjsonFits limits chunks)
    {frames : List NdjsonFrame} :
    (NdjsonParser.new limits).run chunks = .ok frames ↔
      NdjsonAccepted limits chunks.flatten ∧
        frames = ndjsonFramesOf chunks.flatten := by
  rw [NdjsonParser.new, run_ndjsonParser, ← read_ndjsonRules]
  exact Rules.run_eq_ok_iff bounded_ndjsonRules List.not_mem_nil
    (fun _ hlength => reserve_eq_ok hlength) hfits

end Chunks

/-- Two runs over one stream: both reject, or both give the stream's reading. -/
structure Alike {ω : Type} (first second : Except ProviderCoreError (List ω))
    (accepted : Prop) (items : List ω) : Prop where
  rejected : (∃ error, first = .error error) ↔ ∃ error, second = .error error
  accepts : (∃ found, first = .ok found) ↔ accepted
  same : ∀ found, first = .ok found → second = .ok found ∧ found = items

theorem alike_of_eq_ok_iff {ω : Type}
    {first second : Except ProviderCoreError (List ω)} {accepted : Prop}
    {items : List ω} (hfirst : ∀ {found}, first = .ok found ↔ accepted ∧ found = items)
    (hsecond : ∀ {found}, second = .ok found ↔ accepted ∧ found = items) :
    Alike first second accepted items := by
  refine ⟨?_, ⟨?_, ?_⟩, ?_⟩
  · cases first with
    | error error =>
        cases second with
        | error other => exact ⟨fun _ => ⟨other, rfl⟩, fun _ => ⟨error, rfl⟩⟩
        | ok found => cases hfirst.mpr (hsecond.mp rfl)
    | ok found =>
        cases second with
        | error other => cases hsecond.mpr (hfirst.mp rfl)
        | ok other => simp
  · rintro ⟨found, hfound⟩
    exact (hfirst.mp hfound).1
  · intro haccepted
    exact ⟨items, hfirst.mpr ⟨haccepted, rfl⟩⟩
  · intro found hfound
    exact ⟨hsecond.mpr (hfirst.mp hfound), (hfirst.mp hfound).2⟩

/-- Whichever way a stream is cut into chunks, each parser rejects it or not as it
does the other way, and gives the items of the whole stream's reading. -/
theorem framing_independent_of_chunks (limits : FramingLimits)
    (first second : List (List UInt8)) (hstream : first.flatten = second.flatten) :
    (SseFits limits first → SseFits limits second →
      Alike ((SseParser.new limits).run first) ((SseParser.new limits).run second)
        (SseAccepted limits first.flatten) (sseItemsOf first.flatten)) ∧
    (NdjsonFits limits first → NdjsonFits limits second →
      Alike ((NdjsonParser.new limits).run first)
        ((NdjsonParser.new limits).run second)
        (NdjsonAccepted limits first.flatten) (ndjsonFramesOf first.flatten)) := by
  constructor
  · intro hfirst hsecond
    refine alike_of_eq_ok_iff (run_sse_eq_ok_iff hfirst) ?_
    intro found
    rw [hstream]
    exact run_sse_eq_ok_iff hsecond
  · intro hfirst hsecond
    refine alike_of_eq_ok_iff (run_ndjson_eq_ok_iff hfirst) ?_
    intro found
    rw [hstream]
    exact run_ndjson_eq_ok_iff hsecond

/-- A stream whose cuts part a carriage return from its line feed and the two bytes of
a character from each other. -/
theorem framing_independent_of_chunks_of_event :
    let limits : FramingLimits := ⟨16, 64, by decide⟩
    let stream : List UInt8 :=
      [105, 100, 58, 32, 55, 13, 10, 100, 97, 116, 97, 58, 32, 195, 169, 10]
    Alike
        ((SseParser.new limits).run [stream.take 6, (stream.drop 6).take 8, [169, 10]])
        ((SseParser.new limits).run [stream]) (SseAccepted limits stream)
        (sseItemsOf stream) ∧
      sseItemsOf stream = [.event ⟨none, "é", some "7"⟩] ∧
      Alike
        ((NdjsonParser.new limits).run
          [stream.take 6, (stream.drop 6).take 8, [169, 10]])
        ((NdjsonParser.new limits).run [stream]) (NdjsonAccepted limits stream)
        (ndjsonFramesOf stream) := by
  intro limits stream
  have hboth := framing_independent_of_chunks limits
    [stream.take 6, (stream.drop 6).take 8, [169, 10]] [stream] (by decide)
  refine ⟨hboth.1 ?_ ?_, by decide +kernel, hboth.2 ?_ ?_⟩ <;>
    exact Rules.fits_of_length_le (by decide)

end Peritus.Provider.Chunks
