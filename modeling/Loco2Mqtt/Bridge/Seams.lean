import Mathlib.Data.List.Infix
import Loco2Mqtt.Bridge.CutLines

/-! Where one connection ends and the next begins. The assembler keeps the piece of a line
that the old connection broke off, and the greeting of the new one is read onto it. No frame
comes of that: the greeting cannot be read as digits, nor can it complete the word that a
frame's line begins with. What a session reads after its greeting is its own. -/

namespace Loco2Mqtt.Seams

open LocoNetOverTcpCodec LocoNetOverTcpPort WiFiClientLineStream LineAssembler Lines
  InboundTransport CutLines

/-- No line that begins with the text carries a message. -/
def Dead (text : Text) : Prop :=
  ∀ more, decodeLine (lineOf kMaxBufferedBytes '\n' (text ++ more)) = none

/-- What may be left in the assembler: something dead, or something that fits it. -/
def Leftover (text : Text) : Prop := Dead text ∨ text.length < kMaxBufferedBytes

/-- The line a server begins each connection with. -/
def Greeting (line : SentLine) : Prop :=
  ∃ text, line.content = .other text ∧ "VERSION".toList.IsPrefix text ∧ '\n' ∉ text

/-- A line of the server whose frame, if it has one, leaves room for a further character. -/
def ShortLine (line : SentLine) : Prop :=
  line.Valid ∧ ∀ frame ∈ line.frame?, frame.bytes.length ≤ 82

/-- What a server sends on a connection. -/
def Served : List SentLine → Prop
  | [] => False
  | greeting :: rest => Greeting greeting ∧ ∀ line ∈ rest, ShortLine line

/-! ### What the seam is made of -/

theorem Dead.append {text : Text} (h : Dead text) (more : Text) : Dead (text ++ more) := by
  intro further
  rw [List.append_assoc]
  exact h _

theorem decodeLine_lineOf_eq_take (segment : Text) :
    decodeLine (lineOf kMaxBufferedBytes '\n' segment) =
      decodeLine (segment.take kMaxBufferedBytes) := by
  rw [lineOf_newline, decodeLine_withoutCarriageReturn]

theorem dead_of_not_receivePrefix {text : Text} (hlong : kReceivePrefix.length ≤ text.length)
    (h : ¬ kReceivePrefix.IsPrefix text) : Dead text := by
  intro more
  apply decodeLine_of_not_prefix
  intro hfront
  exact h (List.prefix_of_prefix_length_le (hfront.trans (lineOf_isPrefix _ _ _))
    (List.prefix_append _ _) hlong)

/-- Only behind the first five letters of the word can a `V` go on to a message. -/
theorem read_across_seam {text more : Text} {message : LocoNetMessage}
    (hfits : text.length < kMaxBufferedBytes)
    (h : decodeLine (lineOf kMaxBufferedBytes '\n' (text ++ 'V' :: more)) = some message) :
    text.length = 5 ∧ "E ".toList.IsPrefix more := by
  rw [decodeLine_lineOf_eq_take] at h
  obtain ⟨body, hline, hbody⟩ := decodeLine_characters h
  have hmark : (kReceivePrefix ++ body)[text.length]? = some 'V' := by
    rw [← hline, List.getElem?_take_of_lt hfits, List.getElem?_append_right (Nat.le_refl _)]
    simp
  rcases Nat.lt_or_ge text.length kReceivePrefix.length with hshort | hlong
  · rw [List.getElem?_append_left hshort] at hmark
    have hwhere : ∀ n < kReceivePrefix.length, kReceivePrefix[n]? = some 'V' → n = 5 := by decide
    have hfive := hwhere _ hshort hmark
    refine ⟨hfive, ?_⟩
    have hword : kReceivePrefix.IsPrefix (text ++ 'V' :: more) := by
      have htake := List.take_prefix kMaxBufferedBytes (text ++ 'V' :: more)
      rw [hline] at htake
      exact (List.prefix_append _ _).trans htake
    have hdrop := hword.drop 6
    have hrest : (text ++ 'V' :: more).drop 6 = more := by
      rw [List.drop_append, List.drop_eq_nil_of_le (by omega), hfive]
      rfl
    rwa [hrest] at hdrop
  · rw [List.getElem?_append_right hlong] at hmark
    rcases hbody _ (List.mem_of_getElem? hmark) with hspace | hdigit
    · exact absurd hspace (by decide)
    · exact absurd hdigit (by decide)

/-- A greeting read onto a leftover carries nothing. -/
theorem decodeLine_leftover_greeting {text greeting : Text} (h : Leftover text)
    (hgreeting : "VERSION".toList.IsPrefix greeting) :
    decodeLine (lineOf kMaxBufferedBytes '\n' (text ++ greeting)) = none := by
  rcases h with hdead | hfits
  · exact hdead greeting
  · obtain ⟨rest, rfl⟩ := hgreeting
    rw [← Option.not_isSome_iff_eq_none, Option.isSome_iff_exists]
    rintro ⟨message, hread⟩
    have hseam := (read_across_seam hfits hread).2
    exact absurd (List.prefix_of_prefix_length_le hseam (List.prefix_append _ rest) (by decide))
      (by decide)

/-- A connection that breaks off in its greeting leaves a leftover as well. -/
theorem leftover_append_greeting {text piece greeting : Text} (h : Leftover text)
    (hpiece : piece.IsPrefix greeting) (hgreeting : "VERSION".toList.IsPrefix greeting) :
    Leftover (text ++ piece) := by
  rcases h with hdead | hfits
  · exact Or.inl (hdead.append piece)
  rcases Nat.lt_or_ge (text ++ piece).length kMaxBufferedBytes with hshort | hlong
  · exact Or.inr hshort
  left
  intro more
  rw [← Option.not_isSome_iff_eq_none, Option.isSome_iff_exists]
  rintro ⟨message, hread⟩
  rw [List.length_append] at hlong
  have hstarts : ∀ c rest, piece = c :: rest → c = 'V' := by
    rintro c rest rfl
    obtain ⟨after, rfl⟩ := hpiece
    exact (List.cons_prefix_cons.mp hgreeting).1.symm
  obtain ⟨c, rest, hcons⟩ := List.exists_cons_of_length_pos (l := piece) (by omega)
  obtain rfl := hstarts c rest hcons
  rw [List.append_assoc, hcons, List.cons_append] at hread
  obtain ⟨hfive, -⟩ := read_across_seam hfits hread
  -- the piece is then long enough to be a greeting by itself
  have hlength : "VERSION".toList.length ≤ piece.length := by
    have hcap : kMaxBufferedBytes = 256 := rfl
    have hseven : "VERSION".toList.length = 7 := by decide
    omega
  have hwhole := List.prefix_of_prefix_length_le hgreeting hpiece hlength
  have hnone := decodeLine_leftover_greeting (Or.inr hfits)
    (hwhole.trans (List.prefix_append piece more))
  rw [hcons, List.cons_append, hread] at hnone
  cases hnone

/-- So does one that breaks off in a later line. -/
theorem leftover_of_isPrefix {line : SentLine} (hline : ShortLine line) {piece : Text}
    (hpiece : piece.IsPrefix line.body) : Leftover piece := by
  obtain ⟨hvalid, hlong⟩ := hline
  obtain ⟨content, carriageReturn⟩ := line
  cases content with
  | data frame =>
    right
    have hle := hpiece.length_le
    have hbytes : frame.bytes.length ≤ 82 := hlong frame rfl
    simp only [SentLine.body, SentLine.text, List.length_append,
      LocoNetMessage.length_describe] at hle
    have hfront : kReceivePrefix.length = 8 := by decide
    have hcap : kMaxBufferedBytes = 256 := rfl
    have hend : (if carriageReturn then ['\r'] else []).length ≤ 1 := by
      cases carriageReturn <;> simp
    omega
  | other text =>
    rcases Nat.lt_or_ge piece.length kMaxBufferedBytes with hshort | hcut
    · exact Or.inr hshort
    · left
      apply dead_of_not_receivePrefix
      · have hfront : kReceivePrefix.length = 8 := by decide
        have hcap : kMaxBufferedBytes = 256 := rfl
        omega
      · intro hfront
        have hbody := hfront.trans hpiece
        simp only [SentLine.body, SentLine.text] at hbody
        cases carriageReturn with
        | false => exact hvalid.2 (by simpa using hbody)
        | true => exact hvalid.2 (receivePrefix_concat.mp hbody)

/-! ### What one connection delivers -/

theorem leftover_nil : Leftover [] := Or.inr (by decide)

theorem Greeting.valid {line : SentLine} (h : Greeting line) : line.Valid := by
  obtain ⟨text, hcontent, hversion, hnewline⟩ := h
  rw [SentLine.Valid, hcontent]
  refine ⟨hnewline, fun hprefix => ?_⟩
  have hboth := List.prefix_of_prefix_length_le hversion hprefix (by decide)
  exact absurd hboth (by decide)

theorem Greeting.body_starts {line : SentLine} (h : Greeting line) :
    "VERSION".toList.IsPrefix line.body := by
  obtain ⟨text, hcontent, hversion, -⟩ := h
  rw [SentLine.body, SentLine.text, hcontent]
  exact hversion.trans (List.prefix_append _ _)

theorem Greeting.frame?_eq_none {line : SentLine} (h : Greeting line) : line.frame? = none := by
  obtain ⟨text, hcontent, -, -⟩ := h
  rw [SentLine.frame?, hcontent]

theorem served_valid {lines : List SentLine} (h : Served lines) : ∀ line ∈ lines, line.Valid := by
  cases lines with
  | nil => exact h.elim
  | cons greeting rest =>
    intro line hline
    rcases List.mem_cons.mp hline with rfl | hline
    · exact h.1.valid
    · exact (h.2 line hline).1

/-- The bytes read on one connection, onto whatever the connections before have left: the
frames of the lines read to their end come out and nothing else, and again a leftover
remains. -/
theorem messagesIn_session {text bytes : Text} (h : Leftover text) {lines : List SentLine}
    (hlines : Served lines) (hbytes : bytes.IsPrefix (bytesOf lines)) :
    messagesIn (segmentsFrom '\n' text bytes).1 = framesOf (lines.take (bytes.count '\n')) ∧
      Leftover (segmentsFrom '\n' text bytes).2 := by
  have hvalid := served_valid hlines
  obtain _ | ⟨greeting, rest⟩ := lines
  · exact hlines.elim
  obtain ⟨hgreeting, hrest⟩ := hlines
  have hnewline : ∀ body ∈ (greeting :: rest).map SentLine.body, '\n' ∉ body := by
    intro body hbody
    obtain ⟨line, hline, rfl⟩ := List.mem_map.mp hbody
    exact newline_not_mem_body (hvalid line hline)
  have hprefix : bytes.IsPrefix
      (((greeting :: rest).map SentLine.body).flatMap (· ++ ['\n'])) := by
    rwa [List.flatMap_map]
  have hsegments := segments_of_isPrefix hnewline hprefix
  have hlast := segments_rest_isPrefix hnewline hprefix
  have hfrom := segmentsFrom_append_left (t := '\n') text [] bytes
  rw [List.append_nil, ← segments] at hfrom
  rcases hcount : bytes.count '\n' with _ | k
  · -- not even the greeting has been read to its end
    rw [hcount] at hsegments hlast
    rw [List.map_cons, List.take_zero] at hsegments
    have hpair : segments '\n' bytes = ([], (segments '\n' bytes).2) := Prod.ext hsegments rfl
    rw [hfrom, hpair]
    exact ⟨rfl, leftover_append_greeting h hlast hgreeting.body_starts⟩
  · rw [hcount] at hsegments hlast
    rw [List.map_cons, List.take_succ_cons] at hsegments
    rw [List.map_cons, List.getD_cons_succ] at hlast
    have hpair : segments '\n' bytes =
        (greeting.body :: (rest.map SentLine.body).take k, (segments '\n' bytes).2) :=
      Prod.ext hsegments rfl
    rw [hfrom, hpair]
    constructor
    · have hnone := decodeLine_leftover_greeting h hgreeting.body_starts
      have hrestvalid : ∀ line ∈ rest.take k, line.Valid :=
        fun line hline => (hrest line (List.mem_of_mem_take hline)).1
      simp only [messagesIn, List.filterMap_cons, hnone, List.take_succ_cons, framesOf,
        hgreeting.frame?_eq_none]
      rw [← List.map_take]
      exact messagesIn_bodies hrestvalid
    · simp only
      rw [List.getD_eq_getElem?_getD, List.getElem?_map] at hlast
      rcases hnext : rest[k]? with _ | line
      · rw [hnext] at hlast
        rw [List.prefix_nil.mp hlast]
        exact leftover_nil
      · rw [hnext] at hlast
        exact leftover_of_isPrefix (hrest line (List.mem_of_getElem? hnext)) hlast

end Loco2Mqtt.Seams
