/-
  Framing.lean --- what a reader of lines makes of the stream.

  The pieces that are sent to a client make one stream of bytes.  The snapshots can
  be read back from it as from their own texts, with one exception: a reply does not
  end with a newline, so that whoever reads lines takes it for a part of the name that
  comes next (`readings`, `stream_of_run`).  The stream is that of the texts passed to
  `send`: one that fails or is cut short leaves a gap in what the client receives.
-/
import Mathlib.Data.List.Chain
import XplaneServer.Readback
import XplaneServer.Stream

set_option autoImplicit false

namespace XplaneServer

open Foundation Json Datas Networking

/-! ## What a reader of lines finds -/

/-- The names and values that are read off pieces behind some bytes, and the bytes
that are left.  A reply is no line, and becomes a part of the name that comes next. -/
def readings (front : Bytes) : List Piece → List (Bytes × Bytes) × Bytes
  | [] => ([], front)
  | .reply text :: pieces => readings (front ++ text) pieces
  | .snapshot t m :: pieces =>
      match snapshotPairs t.sim m with
      | [] => readings front pieces
      | (name, value) :: pairs =>
          ((front ++ name, value) :: pairs ++ (readings [] pieces).1, (readings [] pieces).2)

/-- They are the bytes of the pieces. -/
theorem readings_text (front : Bytes) (pieces : List Piece) :
    front ++ (pieces.map Piece.text).flatten =
      ((readings front pieces).1.flatMap fun p => p.1 ++ lineEnding p.2) ++
        (readings front pieces).2 := by
  induction pieces generalizing front with
  | nil => simp [readings]
  | cons piece pieces ih =>
      cases piece with
      | reply text =>
          rw [readings, ← ih, List.map_cons, List.flatten_cons, List.append_assoc]
          rfl
      | snapshot t m =>
          rw [readings, List.map_cons, List.flatten_cons, Piece.text, snapshotText_eq]
          cases snapshotPairs t.sim m with
          | nil => exact ih front
          | cons p pairs =>
              have hrest := ih []
              rw [List.nil_append] at hrest
              simp [hrest]

/-- The names and values in a piece. -/
def Piece.pairs : Piece → List (Bytes × Bytes)
  | .reply _ => []
  | .snapshot t m => snapshotPairs t.sim m

/-- Without replies, they are the pairs of the snapshots, and nothing is left. -/
theorem readings_snapshots {pieces : List Piece} (h : ∀ text, Piece.reply text ∉ pieces) :
    readings [] pieces = (pieces.flatMap Piece.pairs, []) := by
  induction pieces with
  | nil => rfl
  | cons piece pieces ih =>
      have hrest := ih fun text htext => h text (List.mem_cons_of_mem _ htext)
      cases piece with
      | reply text => exact absurd List.mem_cons_self (h text)
      | snapshot t m =>
          rw [readings, hrest, List.flatMap_cons, Piece.pairs]
          cases snapshotPairs t.sim m with
          | nil => rfl
          | cons p pairs => rfl

/-- Bytes after which a name still contains no ending of a line. -/
def Harmless (front : Bytes) : Prop :=
  ∀ name, Free plainEndings name → Free plainEndings (front ++ name)

theorem harmless_nil : Harmless [] := fun _ hname => hname

theorem Harmless.append {front front' : Bytes} (h : Harmless front) (h' : Harmless front') :
    Harmless (front ++ front') := by
  intro name hname
  rw [List.append_assoc]
  exact h _ (h' name hname)

/-- An ending begins with a space and a colon. -/
theorem harmless_of_isChain {front : Bytes} (hchain : front.IsChain fun b b' => b = 32 → b' ≠ 58)
    (hlast : front.getLast? ≠ some 32) : Harmless front := by
  intro name hname
  induction front with
  | nil => exact hname
  | cons b front ih =>
      rintro _ ⟨value, hvalue, rfl⟩ hinfix
      rw [List.cons_append, List.infix_cons_iff] at hinfix
      rcases hinfix with ⟨rest, hprefix⟩ | hinfix
      · rw [lineEnding_eq] at hprefix
        simp only [List.cons_append, List.cons.injEq] at hprefix
        obtain ⟨rfl, hrest⟩ := hprefix
        cases front with
        | nil => exact hlast rfl
        | cons b' front =>
            rw [List.isChain_cons_cons] at hchain
            exact hchain.1 rfl (List.cons.inj hrest).1.symm
      · refine ih hchain.tail ?_ _ ⟨value, hvalue, rfl⟩ hinfix
        cases front with
        | nil => simp
        | cons b' front => rwa [List.getLast?_cons_cons] at hlast

theorem harmless_reply {text : Bytes} (h : text ∈ replyTexts) : Harmless text := by
  apply harmless_of_isChain
  · revert text
    decide
  · revert text
    decide

/-- What is read off pieces is plain, behind bytes that are harmless. -/
theorem readings_legible {pieces : List Piece} (htexts : ∀ text, .reply text ∈ pieces →
      text ∈ replyTexts) (hlegible : ∀ p ∈ pieces.filterMap Piece.shown, Legible p.2)
    {front : Bytes} (hfront : Harmless front) :
    ∀ p ∈ (readings front pieces).1, Plain p.2 ∧ Free plainEndings p.1 := by
  induction pieces generalizing front with
  | nil => exact fun p hp => absurd hp List.not_mem_nil
  | cons piece pieces ih =>
      have hrest := fun text h => htexts text (List.mem_cons_of_mem piece h)
      cases piece with
      | reply text =>
          have hreply := harmless_reply (htexts text List.mem_cons_self)
          exact ih hrest hlegible (hfront.append hreply)
      | snapshot t m =>
          have hm : Legible m := hlegible (t, m) List.mem_cons_self
          have hothers := fun p h => hlegible p (List.mem_cons_of_mem (t, m) h)
          have hpairs := hm.pairs t.sim
          rw [readings]
          cases hsnapshot : snapshotPairs t.sim m with
          | nil => exact ih hrest hothers hfront
          | cons first pairs =>
              rw [hsnapshot, List.forall_mem_cons] at hpairs
              have hbehind := ih hrest hothers harmless_nil
              intro p hp
              rcases List.mem_append.mp hp with hp | hp
              · rcases List.mem_cons.mp hp with rfl | hp
                · exact ⟨hpairs.1.1, hfront _ hpairs.1.2⟩
                · exact hpairs.2 p hp
              · exact hbehind p hp

/-- A registry that extends to a legible one is legible. -/
theorem Legible.of_extends {m m' : DatarefMap} (h : Legible m') (hextends : Extends m m') :
    Legible m := by
  refine ⟨fun name d hd => h.entries name d (hextends name d hd), fun name hname => ?_⟩
  apply h.names
  rw [← Std.ExtTreeMap.isSome_getElem?_iff_mem] at hname ⊢
  obtain ⟨d, hd⟩ := Option.isSome_iff_exists.mp hname
  rw [hextends name d hd]
  rfl

/-! ## Runs -/

/-- **Reading pieces**: their bytes are lines that are read back, and the replies
after them. -/
theorem Sent.read {past : List (TickEnv × DatarefMap)} {pieces : List Piece}
    (h : Sent past pieces) (hlegible : ∀ p ∈ past, Legible p.2) :
    ∃ text, (pieces.map Piece.text).flatten = text ++ (readings [] pieces).2 ∧
      readSnapshot text = some (readings [] pieces).1 := by
  have hshown : ∀ p ∈ pieces.filterMap Piece.shown, Legible p.2 :=
    fun p hp => hlegible p (h.shown.subset hp)
  refine ⟨_, ?_, readSnapshot_lines (readings_legible h.replies hshown harmless_nil)⟩
  rw [← readings_text, List.nil_append]

/-- **What is sent to a client.**  In a run of ticks the registries extend each other,
so nothing that was registered is lost or changed.  After it nothing was passed to
`send` for a socket, or the greeting and then replies and snapshots: one snapshot at
most from each tick, in the order of the ticks, which shows the registry that its tick
left.  If no accepted name contains the ending of a line, the names and values of the
snapshots are read back from the bytes, where replies are parts of names; and without
replies, they are all there is to read. -/
theorem stream_of_run {L : Lib} {w₀ w : World} {ticks : List TickEnv} (hstart : Started w₀)
    (hrun : Run (fun w t w' => t.Fresh w ∧ Tick L w t w') w₀ ticks w) :
    ((history L w₀ ticks).map Prod.snd ++ [w.datarefMap]).Pairwise Extends ∧
      ∀ s, passed s (transmissions w.trace) = [] ∨
        ∃ pieces, passed s (transmissions w.trace) =
            lit "Hello on the server\n" :: pieces.map Piece.text ∧
          Sent (history L w₀ ticks) pieces ∧
          ((∀ name ∈ (accepted L.json w.trace).map Prod.fst, Free plainEndings name) →
            (∃ text, (pieces.map Piece.text).flatten = text ++ (readings [] pieces).2 ∧
              readSnapshot text = some (readings [] pieces).1) ∧
            ((∀ text, Piece.reply text ∉ pieces) →
              readSnapshot (pieces.map Piece.text).flatten =
                some (pieces.flatMap Piece.pairs))) := by
  obtain ⟨-, hfaithful⟩ := tracked_of_run hstart hrun
  have hgrows := extends_of_run hstart hrun
  refine ⟨hgrows, fun s => ?_⟩
  rcases served_of_run hstart hrun s with ⟨hnothing, -⟩ | ⟨-, pieces, hsent, hpassed⟩
  · exact Or.inl hnothing
  · refine Or.inr ⟨pieces, hpassed, hsent, fun hnames => ?_⟩
    have hend : Legible w.datarefMap :=
      ⟨hfaithful.readable, fun name h => hnames name ((hfaithful.mem_iff name).mp h)⟩
    have hlegible : ∀ p ∈ history L w₀ ticks, Legible p.2 := by
      intro p hp
      have hlater := (List.pairwise_append.mp hgrows).2.2 p.2 (List.mem_map_of_mem hp)
      exact hend.of_extends (hlater _ (List.mem_singleton_self _))
    obtain ⟨text, htext, hread⟩ := hsent.read hlegible
    refine ⟨⟨text, htext, hread⟩, fun hsilent => ?_⟩
    rw [readings_snapshots hsilent] at htext hread
    rw [htext, List.append_nil, hread]

/-- The client of `registerTick`, which reads `SUCESSa` for the name `a`. -/
theorem stream_of_run_registerTick :
    ∃ pieces, (pieces.map Piece.text).flatten = lit "SUCESSa : 1\n" ∧
      ∃ text, lit "SUCESSa : 1\n" = text ++ (readings [] pieces).2 ∧
        readSnapshot text = some (readings [] pieces).1 := by
  have hpassed : passed 7 (transmissions (exec (mainCallBack (.ofJson registrationJson)
      registerTick) .started).2.trace) =
        [lit "Hello on the server\n", lit "SUCESS", lit "a : 1\n"] := by
    decide
  have hnames : (accepted registrationJson (exec (mainCallBack (.ofJson registrationJson)
      registerTick) .started).2.trace).map Prod.fst = [lit "a"] := by
    decide
  rcases (stream_of_run started_started ((Run.nil _).snoc registerTick_step)).2 7 with
    hnothing | ⟨pieces, htexts, -, hread⟩
  · rw [hpassed] at hnothing
    cases hnothing
  · rw [hpassed, List.cons.injEq] at htexts
    have hflat : (pieces.map Piece.text).flatten = lit "SUCESSa : 1\n" := by
      rw [← htexts.2]
      decide
    refine ⟨pieces, hflat, ?_⟩
    rw [← hflat]
    refine (hread fun name hname => ?_).1
    have hin : name ∈ [lit "a"] := hnames ▸ hname
    rw [List.mem_singleton.mp hin]
    exact free_of_oneLine (by decide)

example : readSnapshot (lit "SUCESSa : 1\n") = some [(lit "SUCESSa", lit "1")] := by decide

end XplaneServer
