import ComputerNetworks.Core.Bounds
import ComputerNetworks.Proxy.HeaderSection

/-!
# The parser and the ends of its buffers

Two pointers are formed by adding to a place that was found: the version behind
the address, and the value two bytes behind a colon. A request is parsed without
leaving a buffer exactly if both land inside, which is a matter of its text.
-/

namespace ComputerNetworks.Proxy

/-- A terminated copy of a request with a complete header section: `after` is what stands behind
the first NUL of the body. -/
structure Sections (b line : List UInt8) (hs : List (List UInt8)) (body after : List UInt8) :
    Prop where
  block_eq : b = requestText line hs body ++ 0 :: after
  no_nul : 0 ∉ requestText line hs body
  line_crlf : NoCrlf line
  lines : HeaderLines hs

/-- The value of a header is looked for behind a colon of the body and is not found: the last
header line has no colon, the body has one, and no line end two bytes behind it. -/
def ValueLost (hs : List (List UInt8)) (body after : List UInt8) : Prop :=
  ∃ l ∈ hs.getLast?, 58 ∉ l ∧ 58 ∈ body ∧ NoCrlf (behindColon body after)

/-- The parser loses its way exactly where a value is lost. -/
theorem sectionEnds_eq_lost {hs : List (List UInt8)} {body after : List UInt8} :
    sectionEnds hs body after = .lost ↔ ValueLost hs body after := by
  rw [sectionEnds, ValueLost]
  cases hs.getLast? with
  | none => simp
  | some l =>
    by_cases hl : 58 ∈ l
    · simp [hl]
    · by_cases hbody : 58 ∈ body
      · by_cases hcrlf : crlf <:+: behindColon body after <;>
          simp [hl, hbody, hcrlf, readingEnds, NoCrlf]
      · simp [hl, hbody, readingEnds]

/-- It refuses the headers exactly if no colon is left to be found. -/
theorem sectionEnds_eq_refused {hs : List (List UInt8)} {body after : List UInt8} (hne : hs ≠ []) :
    sectionEnds hs body after = .refused ↔ (∀ l ∈ hs.getLast?, 58 ∉ l) ∧ 58 ∉ body := by
  rw [sectionEnds, List.getLast?_eq_some_getLast hne]
  by_cases hl : 58 ∈ hs.getLast hne
  · simp [hl]
  · by_cases hbody : 58 ∈ body
    · by_cases hcrlf : crlf <:+: behindColon body after <;> simp [hl, hbody, hcrlf, readingEnds]
    · simp [hl, hbody, readingEnds]

/-- A run that returns something else than 0 was refused. -/
theorem Ending.Of.eq_refused {α : Type} {run : Run (Int × α)} {e : Ending} {ret : Int} {a : α}
    (h : e.Of run) (hrun : run = .ok (ret, a)) (hret : ret ≠ 0) : e = .refused := by
  subst hrun
  cases e with
  | read =>
    obtain ⟨a', ha⟩ := h
    cases ha
    exact absurd rfl hret
  | refused => rfl
  | lost => exact h.elim nofun nofun

/-- An ending does not depend on what is done with the result. -/
theorem Ending.Of.map {α β : Type} {run : Run (Int × α)} {e : Ending} (h : e.Of run) (f : α → β) :
    e.Of ((fun out => (out.1, f out.2)) <$> run) := by
  cases e with
  | read =>
    obtain ⟨a, rfl⟩ := h
    exact ⟨f a, rfl⟩
  | refused =>
    obtain ⟨a, rfl⟩ := h
    exact ⟨f a, rfl⟩
  | lost =>
    rcases h with rfl | rfl
    · exact Or.inl rfl
    · exact Or.inr rfl

/-- A section is at least as long as the number of its lines. -/
theorem length_le_sectionText (hs : List (List UInt8)) : hs.length ≤ (sectionText hs).length := by
  induction hs with
  | nil => exact le_rfl
  | cons l ls ih =>
    simp only [sectionText_cons, crlf, List.length_append, List.length_cons, List.length_nil]
    omega

/-- The header section of a request starts behind its first line. -/
theorem Sections.section_at {b line body after : List UInt8} {hs : List (List UInt8)}
    (h : Sections b line hs body after) : CStrAt b 0 (requestText line hs body) ∧
      b.drop (line.length + 2) = sectionText hs ++ (crlf ++ body) ++ 0 :: after := by
  refine ⟨cstrAt_of_drop after h.no_nul (by rw [List.drop_zero, h.block_eq]), ?_⟩
  have hsplit : requestText line hs body ++ 0 :: after =
      (line ++ crlf) ++ (sectionText hs ++ (crlf ++ body) ++ 0 :: after) := by simp [requestText]
  have hlen : line.length + 2 = (line ++ crlf).length := by simp [crlf]
  rw [h.block_eq, hsplit, hlen, List.drop_left]

/-- A text with an empty line in it is a request with a complete header section. -/
theorem sections_of_text {b text : List UInt8} (htext : CStrAt b 0 text)
    (hend : crlfcrlf <:+: text) : ∃ line hs body after, Sections b line hs body after := by
  obtain ⟨i, hi⟩ := findSub_isSome ((List.infix_append [] crlf crlf).trans hend)
  obtain ⟨line, s, rfl, -, hline⟩ := findSub_crlf_eq_some hi
  obtain ⟨hs, body, hlines, rfl⟩ := exists_section (crlfcrlf_behind_line hline hend)
  obtain ⟨after, hafter⟩ := htext.eq_append
  rw [List.drop_zero] at hafter
  exact ⟨line, hs, body, after, hafter, htext.1, hline, hlines⟩

/-- A line that ends with its address is not accepted. -/
theorem LineOk.not_endsInAddress {errnoEinval : Bool} {line : List UInt8}
    (h : LineOk errnoEinval line) : ¬ EndsInAddress line := by
  obtain ⟨method, afterMethod, addr, version, hmethod, haddr, hhttp, -⟩ := h
  rintro ⟨_, _, _, hmethod', haddr', -⟩
  cases hmethod.symm.trans hmethod'
  cases haddr.symm.trans haddr'
  exact absurd hhttp (by decide)

namespace ParsedRequest

/-- The request line is parsed in a copy of its own. -/
def lineCopy (line : List UInt8) : ParsedRequest :=
  { create with buf := some (line ++ [0]), buflen := line.length + 1 }

variable {buf line body after : List UInt8} {hs : List (List UInt8)} {n : Nat}

/-- The parse of a request with a complete header section. -/
theorem parse_sections (errnoEinval : Bool) (hmin : 4 ≤ n) (hmax : n ≤ 65535)
    (hn : n ≤ buf.length) (h : Sections (buf.take n ++ [0]) line hs body after) :
    parse (fun _ => true) errnoEinval create buf n =
      parseRequestLine errnoEinval (lineCopy line) (line ++ [0]) >>= fun out =>
        if out.1 ≠ 0 then .ok out
        else (fun t => (t.1, out.2.withHeaders t.2)) <$>
          ParsedHeader.parseLoop (fun _ => true) (buf.take n ++ [0]) (n + 1) (line.length + 2)
            out.2.toHeaderTable := by
  have hat := h.section_at.1
  have hend := crlfcrlf_infix_requestText line hs body
  have hlen : (buf.take n ++ [0]).length = n + 1 := by simp [hn]
  rw [parse_text errnoEinval rfl hmin hmax hn hat h.line_crlf hend]
  change (parseRequestLine errnoEinval (lineCopy line) (line ++ [0]) >>= fun out => _) = _
  congr 1
  funext out
  obtain ⟨ret, pr⟩ := out
  simp only [parseHeaders_eq pr hat h.line_crlf, hlen]
  rfl

/-- Behind an accepted request line the parse ends as the header section does. -/
theorem parse_accepted {errnoEinval : Bool} (hmin : 4 ≤ n) (hmax : n ≤ 65535)
    (hn : n ≤ buf.length) (h : Sections (buf.take n ++ [0]) line hs body after)
    (hok : LineOk errnoEinval line) :
    (sectionEnds hs body after).Of (parse (fun _ => true) errnoEinval create buf n) := by
  have h0 : 0 ∉ line := fun hc => h.no_nul (List.mem_append_left _ hc)
  rcases parseRequestLine_answers errnoEinval (lineCopy line) h0 with
    ⟨hends, -⟩ | ⟨-, ret, pr, hrun, hret, ht⟩
  · exact absurd hends hok.not_endsInAddress
  have hret0 : ¬ ret ≠ 0 := not_not.2 (hret.2 hok)
  rw [parse_sections errnoEinval hmin hmax hn h, hrun, Exec.ok_bind, if_neg hret0, ht]
  refine Ending.Of.map ?_ pr.withHeaders
  obtain ⟨hat, hdrop⟩ := h.section_at
  -- the block ends with a NUL, which is the one behind the body or stands in `after`
  have hafter : after = [] ∨ 0 ∈ after := by
    rcases List.eq_nil_or_concat after with rfl | ⟨a, c, rfl⟩
    · exact Or.inl rfl
    · have hb := h.block_eq
      rw [List.concat_eq_append, ← List.cons_append, ← List.append_assoc] at hb
      obtain ⟨-, hc⟩ := List.append_inj' hb rfl
      exact Or.inr (by simp [List.singleton_inj.1 hc.symm])
  have h0' : 0 ∉ sectionText hs ++ (crlf ++ body) := by
    have hno := h.no_nul
    simp only [requestText, List.mem_append, not_or] at hno ⊢
    exact hno.2.2
  have hfuel : hs.length < n + 1 := by
    have hlong := hat.length_lt
    have hle := length_le_sectionText hs
    simp only [requestText, List.length_append, List.length_take, List.length_singleton] at hlong
    omega
  exact ParsedHeader.parseLoop_sectionEnds h.lines h0' hdrop hafter hfuel
    ParsedHeader.create_wellFormed

/-- A request line that is not accepted is refused, or leaves its buffer. -/
theorem parse_refused {errnoEinval : Bool} (hmin : 4 ≤ n) (hmax : n ≤ 65535)
    (hn : n ≤ buf.length) (h : Sections (buf.take n ++ [0]) line hs body after)
    (hno : ¬ LineOk errnoEinval line) :
    (EndsInAddress line ∧
      parse (fun _ => true) errnoEinval create buf n = .error .outOfBounds) ∨
    (¬ EndsInAddress line ∧
      ∃ out, parse (fun _ => true) errnoEinval create buf n = .ok out ∧ out.1 ≠ 0) := by
  have h0 : 0 ∉ line := fun hc => h.no_nul (List.mem_append_left _ hc)
  rw [parse_sections errnoEinval hmin hmax hn h]
  rcases parseRequestLine_answers errnoEinval (lineCopy line) h0 with
    ⟨hends, hrun⟩ | ⟨hends, ret, pr, hrun, hret, -⟩
  · exact Or.inl ⟨hends, by rw [hrun, Exec.error_bind]⟩
  · have hret0 : ret ≠ 0 := fun he => hno (hret.1 he)
    exact Or.inr ⟨hends, (ret, pr), by rw [hrun, Exec.ok_bind, if_pos hret0], hret0⟩

end ParsedRequest

/-- No character is read outside a buffer, and no null pointer is used. -/
def StaysInside {α : Type} (run : Run α) : Prop :=
  Exec.Inside run ∧ run ≠ .error .nullPointer

theorem staysInside_ok {α : Type} (a : α) : StaysInside (.ok a : Run α) := ⟨Exec.inside_ok a, nofun⟩

/-- The parser stays inside unless it ends lost. -/
theorem Ending.Of.staysInside_iff {α : Type} {run : Run (Int × α)} {e : Ending} (h : e.Of run) :
    StaysInside run ↔ e ≠ .lost := by
  cases e with
  | read =>
    obtain ⟨a, rfl⟩ := h
    exact iff_of_true (staysInside_ok _) (by decide)
  | refused =>
    obtain ⟨a, rfl⟩ := h
    exact iff_of_true (staysInside_ok _) (by decide)
  | lost =>
    refine iff_of_false (fun hin => ?_) (by decide)
    rcases h with rfl | rfl
    · exact hin.1 rfl
    · exact hin.2 rfl

namespace ParsedRequest

/-- A request with a complete header section is parsed inside the buffers when its line does not
end with the address and, if it is accepted, no value is lost in the body. -/
theorem staysInside_sections_iff {errnoEinval : Bool} {buf line body after : List UInt8}
    {hs : List (List UInt8)} {n : Nat} (hmin : 4 ≤ n) (hmax : n ≤ 65535) (hn : n ≤ buf.length)
    (h : Sections (buf.take n ++ [0]) line hs body after) :
    StaysInside (parse (fun _ => true) errnoEinval create buf n) ↔
      ¬ EndsInAddress line ∧ (LineOk errnoEinval line → ¬ ValueLost hs body after) := by
  by_cases hok : LineOk errnoEinval line
  · rw [(parse_accepted hmin hmax hn h hok).staysInside_iff, Ne, sectionEnds_eq_lost,
      and_iff_right hok.not_endsInAddress, imp_iff_right hok]
  · rcases parse_refused hmin hmax hn h hok with ⟨hends, hrun⟩ | ⟨hends, out, hrun, -⟩
    · exact iff_of_false (fun hin => hin.1 hrun) fun hc => hc.1 hends
    · rw [hrun]
      exact iff_of_true (staysInside_ok out) ⟨hends, fun hc => absurd hc hok⟩

/-- The parser stays inside its buffers on a text without a complete header section, and on any
other as its request line and the colon of its last header line decide. -/
theorem parse_staysInside_iff (errnoEinval : Bool) {buf : List UInt8} {n : Nat} (hmin : 4 ≤ n)
    (hmax : n ≤ 65535) (hn : n ≤ buf.length) :
    StaysInside (parse (fun _ => true) errnoEinval create buf n) ↔
      ∀ line hs body after, Sections (buf.take n ++ [0]) line hs body after →
        ¬ EndsInAddress line ∧ (LineOk errnoEinval line → ¬ ValueLost hs body after) := by
  constructor
  · exact fun hin line hs body after h => (staysInside_sections_iff hmin hmax hn h).1 hin
  · intro hcond
    obtain ⟨text, htext⟩ : ∃ text, CStrAt (buf.take n ++ [0]) 0 text := ⟨_, cstrAt_terminated _⟩
    by_cases hend : crlfcrlf <:+: text
    · obtain ⟨line, hs, body, after, h⟩ := sections_of_text htext hend
      exact (staysInside_sections_iff hmin hmax hn h).2 (hcond line hs body after h)
    · rw [parse_noEnd errnoEinval hn htext hend]
      exact staysInside_ok _

/-- A request that is accepted meets the condition. -/
theorem parse_staysInside_iff_sample :
    4 ≤ (renderRequest sampleLine sampleHeaders).length ∧
      ∀ line hs body after, Sections ((renderRequest sampleLine sampleHeaders).take
          (renderRequest sampleLine sampleHeaders).length ++ [0]) line hs body after →
        ¬ EndsInAddress line ∧ (LineOk false line → ¬ ValueLost hs body after) := by
  refine ⟨by decide, (parse_staysInside_iff false (by decide) (by decide) le_rfl).1 ?_⟩
  obtain ⟨pr, hrun, -⟩ := parse_renderRequest sampleLine_wellFormed.valid
    (fun kv hmem => (sampleHeaders_wellFormed kv hmem).readable) (by decide)
  rw [hrun]
  exact staysInside_ok _

end ParsedRequest

/-- `GET http://a`, with no version behind the address. -/
def unversioned : List UInt8 :=
  ascii ['G', 'E', 'T', ' ', 'h', 't', 't', 'p', ':', '/', '/', 'a'] ++ crlfcrlf

/-- One header line without a colon, and a body that is a colon. -/
def colonBody : List UInt8 := requestText sampleLine.render [ascii ['K']] (ascii [':'])

set_option maxRecDepth 4000 in
/-- Both pointers leave their buffers: the version the copy of the line, and the value the copy
of the request. -/
theorem parse_leaves_buffers :
    ¬ StaysInside (ParsedRequest.parse (fun _ => true) false .create unversioned
        unversioned.length) ∧
      ¬ StaysInside (ParsedRequest.parse (fun _ => true) false .create colonBody
        colonBody.length) := by
  have hversion : ParsedRequest.parse (fun _ => true) false .create unversioned
      unversioned.length = .error .outOfBounds := by decide
  have hvalue : ParsedRequest.parse (fun _ => true) false .create colonBody
      colonBody.length = .error .outOfBounds := by decide +kernel
  exact ⟨fun hin => hin.1 hversion, fun hin => hin.1 hvalue⟩

end ComputerNetworks.Proxy
