import Mathlib.Data.List.Infix
import SavedBasic.Proofs.MacFraming

/-!
# Files of the Macintosh format with other names

The text of a line is made of pieces: what it starts with, and what each token shows. Three keywords
look back at the text in front of them, and two of these take the end of it away. They look at the text
and not at the tokens, so that a name may be what they find. If a file gets another identifier table,
the pieces of its names change, and nothing else does exactly if each of these keywords finds what it
looks for in both files or in neither and takes nothing away from a name (`forall₂_renamed_iff`).
-/

namespace SavedBasic

namespace Mac

open Token (endsWith dropEnd)

/-! ## Lines in pieces -/

/-- A piece of a line: its text, and the token that shows it, unless it is what the line starts with. -/
structure Piece where
  /-- the token -/
  token : Option Token
  /-- the text -/
  text : String
deriving DecidableEq

/-- The text of pieces, the last of which comes first. -/
def joined : List Piece → String
  | [] => ""
  | p :: older => joined older ++ p.text

/-- The pieces without the last characters of their text. -/
def cutEnd : Nat → List Piece → List Piece
  | _, [] => []
  | n, p :: older => { p with text := dropEnd p.text n } :: cutEnd (n - p.text.length) older

/-- What a keyword looks for at the end of a text, how much of it the keyword takes away, and what it
shows then. -/
structure LookBack where
  /-- the end that it looks for -/
  tail : String
  /-- the number of characters that it takes away -/
  cut : Nat
  /-- what it shows -/
  shown : String

/-- The keywords that look back: `ELSE` takes a colon away, and the apostrophe a remark behind a colon;
a plus sign behind `WHILE` shows nothing. -/
def Token.lookBack? : Token → Option LookBack
  | .byte 0x8E => some ⟨":", 1, "ELSE"⟩
  | .byte 0xE8 => some ⟨":REM", 4, "'"⟩
  | .byte 0xEC => some ⟨"WHILE", 0, ""⟩
  | _ => none

/-- The pieces with that of a token. -/
def Token.addTo (names : List String) (ps : List Piece) (t : Token) : List Piece :=
  match t.lookBack? with
  | none => ⟨some t, t.text names⟩ :: ps
  | some l =>
    if endsWith (joined ps) l.tail then ⟨some t, l.shown⟩ :: cutEnd l.cut ps
    else ⟨some t, t.text names⟩ :: ps

/-- The pieces of the line of a record. -/
def Record.pieces (names : List String) (r : Record) : List Piece :=
  r.tokens.foldl (Token.addTo names) [⟨none, r.opening⟩]

theorem dropEnd_zero (text : String) : dropEnd text 0 = text := by
  rw [dropEnd, Nat.sub_zero, ← String.length_toList, List.take_length, String.ofList_toList]

theorem length_dropEnd (text : String) (n : Nat) : (dropEnd text n).length = text.length - n := by
  rw [dropEnd, String.length_ofList, List.length_take, String.length_toList]
  omega

/-- The end of two texts is that of the second, and then that of the first. -/
theorem dropEnd_append_eq (a b : String) (n : Nat) :
    dropEnd (a ++ b) n = dropEnd a (n - b.length) ++ dropEnd b n := by
  apply String.toList_injective
  simp only [dropEnd, String.toList_append, String.toList_ofList, String.length_append,
    List.take_append, String.length_toList]
  congr 1
  · rcases Nat.le_total n b.length with h | h
    · rw [List.take_of_length_le (by rw [String.length_toList]; omega),
        List.take_of_length_le (by rw [String.length_toList]; omega)]
    · congr 1
      omega
  · congr 1
    omega

theorem joined_append (ps older : List Piece) : joined (ps ++ older) = joined older ++ joined ps := by
  induction ps with
  | nil => rw [List.nil_append, joined, String.append_empty]
  | cons p ps ih => rw [List.cons_append, joined, joined, ih, String.append_assoc]

theorem joined_cutEnd (n : Nat) (ps : List Piece) : joined (cutEnd n ps) = dropEnd (joined ps) n := by
  induction ps generalizing n with
  | nil => simp [cutEnd, joined, dropEnd]
  | cons p ps ih => rw [cutEnd, joined, joined, ih, dropEnd_append_eq]

theorem cutEnd_zero (ps : List Piece) : cutEnd 0 ps = ps := by
  induction ps with
  | nil => rfl
  | cons p ps ih => rw [cutEnd, dropEnd_zero, Nat.zero_sub, ih]

theorem length_cutEnd (n : Nat) (ps : List Piece) : (cutEnd n ps).length = ps.length := by
  induction ps generalizing n with
  | nil => rfl
  | cons p ps ih => rw [cutEnd, List.length_cons, List.length_cons, ih]

/-- If enough of the text belongs to the last pieces, the others are left alone. -/
theorem cutEnd_append {n : Nat} {ps : List Piece} (h : n ≤ (joined ps).length) (older : List Piece) :
    cutEnd n (ps ++ older) = cutEnd n ps ++ older := by
  induction ps generalizing n with
  | nil =>
    obtain rfl : n = 0 := Nat.le_zero.mp h
    exact cutEnd_zero older
  | cons p ps ih =>
    rw [joined, String.length_append] at h
    rw [List.cons_append, cutEnd, cutEnd, ih (by omega), List.cons_append]

theorem length_addTo (names : List String) (ps : List Piece) (t : Token) :
    (t.addTo names ps).length = ps.length + 1 := by
  rw [Token.addTo]
  split
  · rfl
  · split
    · rw [List.length_cons, length_cutEnd]
    · rfl

theorem lookBack?_cases {t : Token} {l : LookBack} (h : t.lookBack? = some l) :
    (t = .byte 0x8E ∧ l = ⟨":", 1, "ELSE"⟩) ∨ (t = .byte 0xE8 ∧ l = ⟨":REM", 4, "'"⟩) ∨
      (t = .byte 0xEC ∧ l = ⟨"WHILE", 0, ""⟩) := by
  rw [Token.lookBack?.eq_def] at h
  split at h <;> simp_all

theorem fixup_of_lookBack? {t : Token} {l : LookBack} (h : t.lookBack? = some l) :
    ∃ replaced, (t, l.tail, replaced) ∈ Token.fixups ∧
      ∀ front, dropEnd (front ++ l.tail) l.cut ++ l.shown = front ++ replaced := by
  rcases lookBack?_cases h with ⟨rfl, rfl⟩ | ⟨rfl, rfl⟩ | ⟨rfl, rfl⟩
  · refine ⟨"ELSE", by simp [Token.fixups], fun front => ?_⟩
    exact congrArg (· ++ "ELSE") (Token.dropEnd_append front ":")
  · refine ⟨"'", by simp [Token.fixups], fun front => ?_⟩
    exact congrArg (· ++ "'") (Token.dropEnd_append front ":REM")
  · refine ⟨"WHILE", by simp [Token.fixups], fun front => ?_⟩
    rw [dropEnd_zero, String.append_empty]

theorem lookBack?_of_fixup {fixup : Token × String × String} (h : fixup ∈ Token.fixups) :
    ∃ l, fixup.1.lookBack? = some l ∧ l.tail = fixup.2.1 := by
  simp only [Token.fixups, List.mem_cons, List.not_mem_nil, or_false] at h
  rcases h with rfl | rfl | rfl <;> exact ⟨_, rfl, rfl⟩

/-- Adding the piece of a token is appending the token to the line. -/
theorem joined_addTo (names : List String) (ps : List Piece) (t : Token) :
    joined (t.addTo names ps) = t.append names.toArray (joined ps) := by
  rw [Token.addTo]
  split
  · rename_i hnone
    refine (Token.append_of_not ?_).symm
    rintro fixup hmem rfl
    obtain ⟨l, hl, -⟩ := lookBack?_of_fixup hmem
    rw [hnone] at hl
    cases hl
  · rename_i l hl
    split
    · rename_i hends
      obtain ⟨front, hfront⟩ := Token.endsWith_iff.mp hends
      obtain ⟨replaced, hmem, hreplaced⟩ := fixup_of_lookBack? hl
      rw [joined, joined_cutEnd, hfront, hreplaced]
      exact (Token.append_fixup names.toArray hmem front).symm
    · rename_i hends
      refine (Token.append_of_not ?_).symm
      rintro fixup hmem rfl front hfront
      obtain ⟨l', hl', htail⟩ := lookBack?_of_fixup hmem
      obtain rfl : l = l' := Option.some.inj (hl.symm.trans hl')
      exact hends (Token.endsWith_iff.mpr ⟨front, by rw [hfront, htail]⟩)

theorem joined_pieces (names : List String) (r : Record) :
    joined (r.pieces names) = r.line names.toArray := by
  have hfold : ∀ tokens ps, joined (tokens.foldl (Token.addTo names) ps) =
      Token.appendAll names.toArray (joined ps) tokens := by
    intro tokens
    induction tokens with
    | nil => exact fun _ => rfl
    | cons t rest ih =>
      intro ps
      rw [List.foldl_cons, ih, joined_addTo, Token.appendAll, Token.appendAll, List.foldl_cons]
  rw [Record.pieces, hfold, Record.line, joined, joined, String.empty_append]

/-! ## Other names -/

/-- Whether a piece is that of a reference to the identifier table. -/
def Piece.isName (p : Piece) : Bool :=
  match p.token with
  | some (.name _ _) => true
  | _ => false

/-- Two pieces are the same, or they are those of a reference and show its name in full, one by the
first identifier table and one by the second. -/
inductive Piece.Renamed (names names' : List String) : Piece → Piece → Prop where
  /-- a name -/
  | name (form : Reference) (index : Nat) :
    Renamed names names' ⟨some (.name form index), (Token.name form index).text names⟩
      ⟨some (.name form index), (Token.name form index).text names'⟩
  /-- anything else -/
  | same {p : Piece} (h : p.isName = false) : Renamed names names' p p

/-- Whether there is a character of a name among the last ones of the text of pieces. -/
def cutsName : Nat → List Piece → Bool
  | _, [] => false
  | n, p :: older => (p.isName && decide (0 < n) && p.text != "") || cutsName (n - p.text.length) older

/-- A token that looks back finds the end that it looks for in both texts or in neither, and takes
nothing away from a name. -/
def Token.FindsSame (ps ps' : List Piece) (t : Token) : Prop :=
  ∀ l ∈ t.lookBack?, endsWith (joined ps) l.tail = endsWith (joined ps') l.tail ∧
    (endsWith (joined ps) l.tail = true → cutsName l.cut ps = false ∧ cutsName l.cut ps' = false)

/-- Each of the tokens that are added finds the same. -/
def FindSame (names names' : List String) : List Piece → List Piece → List Token → Prop
  | _, _, [] => True
  | ps, ps', t :: rest =>
    t.FindsSame ps ps' ∧ FindSame names names' (t.addTo names ps) (t.addTo names' ps') rest

instance (ps ps' : List Piece) (t : Token) : Decidable (t.FindsSame ps ps') :=
  inferInstanceAs (Decidable (∀ l ∈ t.lookBack?, _))

instance decidableFindSame (names names' : List String) :
    ∀ ps ps' tokens, Decidable (FindSame names names' ps ps' tokens)
  | _, _, [] => inferInstanceAs (Decidable True)
  | ps, ps', t :: rest =>
    have := decidableFindSame names names' (t.addTo names ps) (t.addTo names' ps') rest
    inferInstanceAs (Decidable (_ ∧ _))

section

variable {names names' : List String} {ps ps' : List Piece} {t : Token} {n : Nat}

theorem Piece.Renamed.token_eq {p p' : Piece} (h : Renamed names names' p p') : p.token = p'.token := by
  cases h <;> rfl

theorem Piece.Renamed.text_eq {p p' : Piece} (h : Renamed names names' p p') {form : Reference}
    {index : Nat} (hp : p.token = some (.name form index)) :
    p.text = (Token.name form index).text names := by
  cases h with
  | name form' index' =>
    cases hp
    rfl
  | same h =>
    rw [Piece.isName, hp] at h
    cases h

theorem dropEnd_of_untouched {text : String} (h : n = 0 ∨ text = "") :
    dropEnd text n = text ∧ n - text.length = n := by
  rcases h with rfl | rfl
  · exact ⟨dropEnd_zero text, Nat.zero_sub _⟩
  · exact ⟨by simp [dropEnd], rfl⟩

theorem untouched_of_dropEnd {text : String} (h : dropEnd text n = text) : n = 0 ∨ text = "" := by
  have hlength := length_dropEnd text n
  rw [h] at hlength
  rcases Nat.eq_zero_or_pos n with hn | hn
  · exact .inl hn
  · exact .inr (String.length_eq_zero_iff.mp (by omega))

theorem cutsName_cons_eq_false {p : Piece} : cutsName n (p :: ps) = false ↔
    (p.isName = true → n = 0 ∨ p.text = "") ∧ cutsName (n - p.text.length) ps = false := by
  rw [cutsName, Bool.or_eq_false_iff]
  refine and_congr_left fun _ => ?_
  cases p.isName <;> rcases Nat.eq_zero_or_pos n with hn | hn <;> simp [hn]
  omega

/-- What is taken away from the end of pieces is the same if nothing is taken away from names. -/
theorem forall₂_renamed_cutEnd (h : List.Forall₂ (Piece.Renamed names names') ps ps')
    (hps : cutsName n ps = false) (hps' : cutsName n ps' = false) :
    List.Forall₂ (Piece.Renamed names names') (cutEnd n ps) (cutEnd n ps') := by
  induction h generalizing n with
  | nil => exact .nil
  | cons hp _ ih =>
    rw [cutsName_cons_eq_false] at hps hps'
    cases hp with
    | name form index =>
      obtain ⟨htext, hn⟩ := dropEnd_of_untouched (hps.1 rfl)
      obtain ⟨htext', hn'⟩ := dropEnd_of_untouched (hps'.1 rfl)
      rw [cutEnd, cutEnd, htext, htext', hn, hn']
      rw [hn] at hps
      rw [hn'] at hps'
      exact .cons (.name form index) (ih hps.2 hps'.2)
    | same hname => exact .cons (.same hname) (ih hps.2 hps'.2)

/-- If the names are shown in full before and after the end of pieces was taken away, nothing was taken
away from them. -/
theorem cutsName_of_renamed {qs qs' : List Piece}
    (h : List.Forall₂ (Piece.Renamed names names') ps qs)
    (h' : List.Forall₂ (Piece.Renamed names names') (cutEnd n ps) qs') : cutsName n ps = false := by
  induction h generalizing n qs' with
  | nil => rfl
  | cons hp _ ih =>
    obtain ⟨q', qs'', hq', hqs'', rfl⟩ := List.forall₂_cons_left_iff.mp h'
    rw [cutsName_cons_eq_false]
    refine ⟨fun hname => ?_, ih hqs''⟩
    cases hp with
    | name form index => exact untouched_of_dropEnd (hq'.text_eq rfl)
    | same hp =>
      rw [hp] at hname
      cases hname

theorem isName_of_lookBack? {l : LookBack} (h : t.lookBack? = some l) (text : String) :
    Piece.isName ⟨some t, text⟩ = false := by
  rcases lookBack?_cases h with ⟨rfl, -⟩ | ⟨rfl, -⟩ | ⟨rfl, -⟩ <;> rfl

/-- Only references show different texts by different tables. -/
theorem renamed_text (t : Token) :
    Piece.Renamed names names' ⟨some t, t.text names⟩ ⟨some t, t.text names'⟩ := by
  cases t with
  | name form index => exact .name form index
  | decimal form n => cases form <;> exact .same rfl
  | _ => exact .same rfl

/-- A token that finds the same in both texts keeps them alike. -/
theorem forall₂_renamed_addTo (h : List.Forall₂ (Piece.Renamed names names') ps ps')
    (hfinds : t.FindsSame ps ps') :
    List.Forall₂ (Piece.Renamed names names') (t.addTo names ps) (t.addTo names' ps') := by
  rw [Token.addTo, Token.addTo]
  cases hl : t.lookBack? with
  | none => exact .cons (renamed_text t) h
  | some l =>
    obtain ⟨hsame, hkept⟩ := hfinds l hl
    dsimp only
    rw [← hsame]
    split
    · rename_i hends
      obtain ⟨hps, hps'⟩ := hkept hends
      exact .cons (.same (isName_of_lookBack? hl _)) (forall₂_renamed_cutEnd h hps hps')
    · exact .cons (renamed_text t) h

theorem Piece.Renamed.symm {p p' : Piece} (h : Renamed names names' p p') :
    Renamed names' names p' p := by
  cases h with
  | name form index => exact .name form index
  | same h => exact .same h

theorem Piece.Renamed.eq_of_not_isName {p p' : Piece} (h : Renamed names names' p p')
    (hp : p.isName = false) : p = p' := by
  cases h with
  | name form index => cases hp
  | same => rfl

theorem leftUnique_renamed : Relator.LeftUnique (Piece.Renamed names names') := by
  rintro p q r hp hq
  cases hp with
  | name form index =>
    have htoken := hq.token_eq
    have htext := hq.text_eq htoken
    cases q
    simp_all
  | same h => exact hq.symm.eq_of_not_isName h

/-- A token that shows the same in both texts and takes the same away finds what it looks for in the
second text if it does in the first. -/
theorem endsWith_of_renamed {l : LookBack} (hl : t.lookBack? = some l)
    (h : List.Forall₂ (Piece.Renamed names names') ps ps')
    (h' : List.Forall₂ (Piece.Renamed names names') (t.addTo names ps) (t.addTo names' ps'))
    (hends : endsWith (joined ps) l.tail = true) : endsWith (joined ps') l.tail = true := by
  by_contra hnot
  simp only [Token.addTo, hl, if_pos hends, if_neg hnot] at h'
  obtain ⟨hshown, hcut⟩ := List.forall₂_cons.mp h'
  have hsame : cutEnd l.cut ps = ps := List.left_unique_forall₂' leftUnique_renamed hcut h
  have huntouched : l.cut = 0 ∨ joined ps = "" := by
    refine untouched_of_dropEnd ?_
    rw [← joined_cutEnd, hsame]
  -- a plus sign is not shown only behind `WHILE`; the others take something away
  rcases lookBack?_cases hl with ⟨rfl, rfl⟩ | ⟨rfl, rfl⟩ | ⟨rfl, rfl⟩
  · rw [huntouched.resolve_left (by decide)] at hends
    exact absurd hends (by decide)
  · rw [huntouched.resolve_left (by decide)] at hends
    exact absurd hends (by decide)
  · have htext : "" = "+" := congrArg Piece.text (hshown.eq_of_not_isName rfl)
    exact absurd htext (by decide)

/-- A token that keeps two texts alike has found the same in both. -/
theorem findsSame_of_renamed (h : List.Forall₂ (Piece.Renamed names names') ps ps')
    (h' : List.Forall₂ (Piece.Renamed names names') (t.addTo names ps) (t.addTo names' ps')) :
    t.FindsSame ps ps' := by
  intro l hl
  have hsymm : List.Forall₂ (Piece.Renamed names' names) ps' ps :=
    (h.imp fun _ _ hp => hp.symm).flip
  have hsymm' : List.Forall₂ (Piece.Renamed names' names) (t.addTo names' ps') (t.addTo names ps) :=
    (h'.imp fun _ _ hp => hp.symm).flip
  have hiff : endsWith (joined ps) l.tail = endsWith (joined ps') l.tail := Bool.eq_iff_iff.mpr
    ⟨endsWith_of_renamed hl h h', endsWith_of_renamed hl hsymm hsymm'⟩
  refine ⟨hiff, fun hends => ?_⟩
  have hends' := hends
  rw [hiff] at hends'
  simp only [Token.addTo, Option.mem_def.mp hl, if_pos hends, if_pos hends'] at h' hsymm'
  exact ⟨cutsName_of_renamed h (List.forall₂_cons.mp h').2,
    cutsName_of_renamed hsymm (List.forall₂_cons.mp hsymm').2⟩

/-! ## Pieces that stay

Behind a keyword that looks back, no other one takes away what stands up to there: its own text, or the
`WHILE` that it has found, is not the beginning of what they look for. -/

/-- No end of the text begins what is taken away. -/
def Frozen (line : String) : Prop :=
  ∀ x, x ≠ [] → x <+: ":REM".toList → ¬ x <:+ line.toList

/-- The texts that lines end with behind a keyword that looks back. -/
def stops : List String :=
  ["ELSE", "'", "+", "WHILE"]

theorem frozen_of_stop {stop : String} (h : stop ∈ stops) (front : String) :
    Frozen (front ++ stop) := by
  have hstops : ∀ x ∈ (":REM".toList).inits, x ≠ [] → ∀ stop ∈ stops,
      ¬ x <:+ stop.toList ∧ ¬ stop.toList <:+ x := by decide
  intro x hx hbegin hend
  obtain ⟨hleft, hright⟩ := hstops x ((List.mem_inits _ _).mpr hbegin) hx stop h
  rw [String.toList_append] at hend
  rcases List.suffix_or_suffix_of_suffix hend (List.suffix_append _ _) with hsuffix | hsuffix
  · exact hleft hsuffix
  · exact hright hsuffix

theorem frozen_addTo {l : LookBack} (hl : t.lookBack? = some l) (names : List String)
    (ps : List Piece) : Frozen (joined (t.addTo names ps)) := by
  simp only [Token.addTo, hl]
  split
  · rename_i hends
    obtain ⟨front, hfront⟩ := Token.endsWith_iff.mp hends
    obtain ⟨replaced, hmem, hreplaced⟩ := fixup_of_lookBack? hl
    rw [joined, joined_cutEnd, hfront, hreplaced]
    have hstops : ∀ fixup ∈ Token.fixups, fixup.2.2 ∈ stops := by decide
    exact frozen_of_stop (hstops _ hmem) front
  · refine frozen_of_stop ?_ (joined ps)
    rcases lookBack?_cases hl with ⟨rfl, -⟩ | ⟨rfl, -⟩ | ⟨rfl, -⟩
    · exact List.mem_of_elem_eq_true rfl
    · exact List.mem_of_elem_eq_true rfl
    · exact List.mem_of_elem_eq_true rfl

/-- What is taken away does not reach what is frozen. -/
theorem cut_le_of_frozen {l : LookBack} {later base : List Piece} (hl : t.lookBack? = some l)
    (hfrozen : Frozen (joined base)) (hends : endsWith (joined (later ++ base)) l.tail = true) :
    l.cut ≤ (joined later).length := by
  have htail : l.cut = 0 ∨ l.cut = l.tail.length ∧ l.tail.toList <+: ":REM".toList := by
    rcases lookBack?_cases hl with ⟨-, rfl⟩ | ⟨-, rfl⟩ | ⟨-, rfl⟩ <;> decide
  rcases htail with hzero | ⟨hcut, hbegin⟩
  · rw [hzero]
    exact Nat.zero_le _
  · by_contra hlt
    rw [hcut, Nat.not_le, ← String.length_toList, ← String.length_toList] at hlt
    obtain ⟨front, hfront⟩ := Token.endsWith_iff.mp hends
    rw [joined_append] at hfront
    have hlists := congrArg String.toList hfront
    rw [String.toList_append, String.toList_append] at hlists
    rcases List.append_eq_append_iff.mp hlists with ⟨x, -, hlater⟩ | ⟨x, hbase, htail⟩
    · rw [hlater, List.length_append] at hlt
      omega
    · refine hfrozen x ?_ (.trans ⟨_, htail.symm⟩ hbegin) ⟨_, hbase.symm⟩
      rintro rfl
      rw [htail, List.nil_append] at hlt
      exact Nat.lt_irrefl _ hlt

theorem addTo_append {base : List Piece} (hfrozen : Frozen (joined base)) (names : List String)
    (t : Token) (later : List Piece) : ∃ later', t.addTo names (later ++ base) = later' ++ base := by
  rw [Token.addTo]
  split
  · exact ⟨_ :: later, rfl⟩
  · rename_i l hl
    split
    · rename_i hends
      rw [cutEnd_append (cut_le_of_frozen hl hfrozen hends)]
      exact ⟨_ :: cutEnd l.cut later, rfl⟩
    · exact ⟨_ :: later, rfl⟩

theorem foldl_addTo_append {base : List Piece} (hfrozen : Frozen (joined base)) (names : List String)
    (tokens : List Token) (later : List Piece) :
    ∃ later', tokens.foldl (Token.addTo names) (later ++ base) = later' ++ base := by
  induction tokens generalizing later with
  | nil => exact ⟨later, rfl⟩
  | cons t rest ih =>
    obtain ⟨later', hlater'⟩ := addTo_append hfrozen names t later
    rw [List.foldl_cons, hlater']
    exact ih later'

theorem length_foldl_addTo (names : List String) (tokens : List Token) (ps : List Piece) :
    (tokens.foldl (Token.addTo names) ps).length = ps.length + tokens.length := by
  induction tokens generalizing ps with
  | nil => rfl
  | cons t rest ih =>
    rw [List.foldl_cons, ih, length_addTo, List.length_cons]
    omega

/-- What is frozen stays when further tokens are added. -/
theorem drop_foldl_addTo {base : List Piece} (hfrozen : Frozen (joined base)) (names : List String)
    (tokens : List Token) : (tokens.foldl (Token.addTo names) base).drop tokens.length = base := by
  obtain ⟨later, hlater⟩ := foldl_addTo_append hfrozen names tokens []
  have hlength := length_foldl_addTo names tokens base
  rw [List.nil_append] at hlater
  rw [hlater, List.length_append] at hlength
  rw [hlater, List.drop_left' (by omega)]

/-- **Other names.** The pieces of two lines of the same tokens differ in names only exactly if each
token finds the same in both. -/
theorem forall₂_renamed_iff (tokens : List Token)
    (h : List.Forall₂ (Piece.Renamed names names') ps ps') :
    List.Forall₂ (Piece.Renamed names names') (tokens.foldl (Token.addTo names) ps)
        (tokens.foldl (Token.addTo names') ps') ↔
      FindSame names names' ps ps' tokens := by
  induction tokens generalizing ps ps' with
  | nil => exact iff_of_true h trivial
  | cons t rest ih =>
    rw [List.foldl_cons, List.foldl_cons, FindSame]
    constructor
    · intro hlines
      -- the pieces up to a keyword that looks back are those of the whole line
      have hnext : List.Forall₂ (Piece.Renamed names names') (t.addTo names ps)
          (t.addTo names' ps') := by
        cases hl : t.lookBack? with
        | none =>
          refine forall₂_renamed_addTo h fun l hmem => ?_
          rw [hl] at hmem
          cases hmem
        | some l =>
          have hdrop := List.forall₂_drop rest.length hlines
          rwa [drop_foldl_addTo (frozen_addTo hl names ps),
            drop_foldl_addTo (frozen_addTo hl names' ps')] at hdrop
      exact ⟨findsSame_of_renamed h hnext, (ih hnext).mp hlines⟩
    · rintro ⟨hfirst, hrest⟩
      exact (ih (forall₂_renamed_addTo h hfirst)).mpr hrest

end

/-! ## Two files with the same records -/

end Mac

namespace Source

variable {src src' : Source} {n pos width : Nat}

/-- Two sources have the same bytes in front of a position. -/
def SameFront (n : Nat) (src src' : Source) : Prop :=
  (src.rest 0).take n = (src'.rest 0).take n

namespace SameFront

theorem take_rest (h : SameFront n src src') (hle : pos + width ≤ n) :
    (src.rest pos).take width = (src'.rest pos).take width := by
  have htake : ∀ src : Source, (src.rest pos).take width =
      (((src.rest 0).take n).drop pos).take width := by
    intro src
    rw [List.drop_take, List.take_take, Nat.min_eq_left (by omega), ← rest_add, Nat.zero_add]
  rw [htake src, htake src', h]

theorem natBE_eq (h : SameFront n src src') (hw : 0 < width) (hle : pos + width ≤ n) :
    src.natBE pos width = src'.natBE pos width := by
  have htake := h.take_rest hle
  have hlength := congrArg List.length htake
  rw [List.length_take, List.length_take] at hlength
  rw [Source.natBE_eq _ _ hw, Source.natBE_eq _ _ hw, htake]
  have hiff : width ≤ (src.rest pos).length ↔ width ≤ (src'.rest pos).length := by omega
  simp only [hiff]

theorem data_eq (h : SameFront n src src') (hlt : pos < n) : src.data[pos]? = src'.data[pos]? := by
  have hle : pos + 1 ≤ n := hlt
  have htake := congrArg List.head? (h.take_rest hle)
  rw [data_eq_head?, data_eq_head?]
  simpa [List.head?_take] using htake

end SameFront

end Source

namespace Mac

theorem lt_of_tokensAt {src : Source} {pos behind : Nat} {tokens : List Token}
    (h : tokensAt src pos = .ok (tokens, behind)) : pos < behind := by
  fun_induction tokensAt src pos generalizing tokens with
  | case1 pos fault hnext => cases h
  | case2 pos hnext =>
    cases h
    exact Nat.lt_succ_self pos
  | case3 pos t fin hnext hlt ih =>
    obtain ⟨r, hrest, hr⟩ := map_eq_ok_iff.mp h
    cases hr
    exact Nat.lt_trans hlt.2 (ih hrest)

section

variable {src src' : Source} {n pos : Nat} (hsame : src.SameFront n src')
include hsame

theorem byteAt_of_sameFront (hlt : pos < n) : byteAt src pos = byteAt src' pos := by
  rw [byteAt, byteAt, hsame.data_eq hlt]

/-- A token that ends in front of the position is the same. -/
theorem read_of_sameFront {first fin : Nat} {t : Token} (h : Token.read src pos first = .ok (t, fin))
    (hfin : fin ≤ n) : Token.read src' pos first = .ok (t, fin) := by
  rcases Token.read_cases first with ⟨width, make, hw, hread⟩ | ⟨make, hread⟩ | ⟨t', hread⟩
  · rw [hread] at h ⊢
    obtain ⟨k, hnumber, hk⟩ := map_eq_ok_iff.mp h
    cases hk
    exact map_eq_ok_iff.mpr ⟨k, by rwa [← hsame.natBE_eq hw hfin], rfl⟩
  · rw [hread] at h ⊢
    obtain ⟨k, hbyte, hk⟩ := map_eq_ok_iff.mp h
    cases hk
    exact map_eq_ok_iff.mpr ⟨k, by rwa [← byteAt_of_sameFront hsame hfin], rfl⟩
  · rw [hread] at h ⊢
    exact h

theorem nextToken_of_sameFront {r : Option (Token × Nat)} (h : nextToken src pos = .ok r)
    (hpos : pos < n) (hfin : ∀ t fin, r = some (t, fin) → fin ≤ n) : nextToken src' pos = .ok r := by
  rw [nextToken] at h
  rw [nextToken, ← hsame.data_eq hpos]
  cases hfirst : src.data[pos]? with
  | none => simp [hfirst] at h
  | some first =>
    rw [hfirst] at h
    dsimp only at h ⊢
    split
    · rwa [if_pos ‹_›] at h
    · rw [if_neg ‹_›] at h
      obtain ⟨found, hread, hfound⟩ := map_eq_ok_iff.mp h
      exact map_eq_ok_iff.mpr
        ⟨found, read_of_sameFront hsame hread (hfin _ _ hfound.symm), hfound⟩

/-- Tokens that end in front of the position are the same. -/
theorem tokensAt_of_sameFront {tokens : List Token} {behind : Nat}
    (h : tokensAt src pos = .ok (tokens, behind)) (hbehind : behind ≤ n) :
    tokensAt src' pos = .ok (tokens, behind) := by
  fun_induction tokensAt src pos generalizing tokens with
  | case1 pos fault hnext => cases h
  | case2 pos hnext =>
    cases h
    exact tokensAt_of_zero (nextToken_of_sameFront hsame hnext hbehind (by simp))
  | case3 pos t fin hnext hlt ih =>
    obtain ⟨r, hrest, hr⟩ := map_eq_ok_iff.mp h
    cases hr
    have hfin := lt_of_tokensAt hrest
    exact tokensAt_of_next (nextToken_of_sameFront hsame hnext (by omega) (by simp; omega)) (ih hrest)

/-- A record whose tokens end in front of the position is the same. -/
theorem recordAt_of_sameFront {offset behind : Nat} {r : Record}
    (h : recordAt src offset = .ok (r, behind)) (hbehind : behind ≤ n) :
    recordAt src' offset = .ok (r, behind) := by
  obtain ⟨word, hword, hbit, hindent, hnumber, htokens⟩ := recordAt_eq_ok_iff.mp h
  have hlt := lt_of_tokensAt htokens
  have hhead : offset + 3 < behind := by
    split at hlt <;> omega
  refine recordAt_eq_ok_iff.mpr ⟨word, ?_, hbit, ?_, fun number hmem => ?_,
    tokensAt_of_sameFront hsame htokens hbehind⟩
  · rw [← hsame.natBE_eq (by decide) (by omega), hword]
  · rw [← byteAt_of_sameFront hsame (by omega), hindent]
  · rw [Option.mem_def.mp hmem, Option.isSome_some, if_pos rfl] at hlt
    rw [← hsame.natBE_eq (by decide) (by omega), hnumber number hmem]

end

theorem le_recordsEnd {src : Source} {offset fin : Nat} (h : recordsEnd src offset = .ok fin) :
    offset + 2 ≤ fin ∧ ∀ o ∈ recordOffsets src offset, o + 2 ≤ fin := by
  fun_induction recordOffsets src offset with
  | case1 offset fault hnext =>
    rw [recordsEnd_eq_next, hnext] at h
    cases h
  | case2 offset hnext =>
    rw [recordsEnd_eq_next, hnext] at h
    cases h
    exact ⟨Nat.le_refl _, by simp⟩
  | case3 offset numbered next hnext hlt ih =>
    rw [recordsEnd_eq_next, hnext] at h
    obtain ⟨hle, hoffsets⟩ := ih h
    have hfirst : offset + 2 ≤ fin := by omega
    exact ⟨hfirst, List.forall_mem_cons.mpr ⟨hfirst, hoffsets⟩⟩

/-- A record stands at an offset, with all its tokens in front of a position. -/
def RecordBelow (n : Nat) (src : Source) (offset : Nat) (r : Record) : Prop :=
  ∃ behind, recordAt src offset = .ok (r, behind) ∧ behind ≤ n

/-- A file whose records have been found is listed with their lines. -/
theorem listMac_of_records {src : Source} {fin n : Nat} {names : List String} {records : List Record}
    (hmark : byteAt src 0 = .ok mark) (hend : recordsEnd src 1 = .ok fin)
    (hnames : readNames src (namesStart fin) = .ok names)
    (hrecords : List.Forall₂ (RecordBelow n src) (recordOffsets src 1) records) :
    Command.listMac src =
      .printed none (.ofLines (records.map fun r => joined (r.pieces names))) := by
  have hprint : print src = renderRecords src names.toArray 1 := by
    rw [print, hend]
    simp only [Except.bind, hnames]
  have hlines : ∀ {offsets records}, List.Forall₂ (RecordBelow n src) offsets records →
      Printout.ofPrinted (offsets.map fun offset => lineOf names (src.rest offset)) =
        .ofLines (records.map fun r => joined (r.pieces names)) := by
    intro offsets records h
    induction h with
    | nil => rfl
    | @cons offset r _ _ hrecord _ ih =>
      obtain ⟨behind, hrecord, -⟩ := hrecord
      rw [List.map_cons, lineOf_rest, hrecord, List.map_cons, joined_pieces]
      exact congrArg (fun p => Printout.mk (r.line names.toArray :: p.lines) p.failure) ih
  rw [Command.listMac, hmark, hprint, renderRecords_eq names hend, hlines hrecords]
  rfl

/-- **Other names in a file.** The lines of a file end in front of its identifier table, and there is
another file with another table in its place. Both are listed without a fault, with a line for each of
their records, which are the same. In a line nothing but the names changes, each of which is
replaced in full, exactly if each keyword that looks back finds the end that it looks for in both files
or in neither, and takes nothing away from a name. -/
theorem names_replaced_iff {src src' : Source} {fin : Nat} {names names' : List String}
    {records : List Record} (hmark : byteAt src 0 = .ok mark) (hend : recordsEnd src 1 = .ok fin)
    (hrecords : List.Forall₂ (RecordBelow (namesStart fin) src) (recordOffsets src 1) records)
    (hnames : readNames src (namesStart fin) = .ok names)
    (hfront : src.SameFront (namesStart fin) src')
    (hnames' : readNames src' (namesStart fin) = .ok names') :
    Command.listMac src =
        .printed none (.ofLines (records.map fun r => joined (r.pieces names))) ∧
      Command.listMac src' =
        .printed none (.ofLines (records.map fun r => joined (r.pieces names'))) ∧
      ∀ r ∈ records,
        List.Forall₂ (Piece.Renamed names names') (r.pieces names) (r.pieces names') ↔
          FindSame names names' [⟨none, r.opening⟩] [⟨none, r.opening⟩] r.tokens := by
  have hstart : fin + 1 ≤ namesStart fin := by
    rw [namesStart]
    split <;> omega
  obtain ⟨hle, hoffsets⟩ := le_recordsEnd hend
  have hmark' : byteAt src' 0 = .ok mark := by
    rw [← byteAt_of_sameFront hfront (by omega), hmark]
  have hwords : ∀ o, o ∈ recordOffsets src 1 ∨ o + 2 = fin → src'.natBE o 2 = src.natBE o 2 := by
    rintro o (ho | ho)
    · have hfin := hoffsets o ho
      exact (hfront.natBE_eq (by decide) (by omega)).symm
    · exact (hfront.natBE_eq (by decide) (by omega)).symm
  obtain ⟨hoffsets', hend'⟩ := recordOffsets_congr hend hwords
  have hrecords' : List.Forall₂ (RecordBelow (namesStart fin) src') (recordOffsets src' 1)
      records := by
    rw [hoffsets']
    refine hrecords.imp ?_
    rintro offset r ⟨behind, hrecord, hbehind⟩
    exact ⟨behind, recordAt_of_sameFront hfront hrecord hbehind, hbehind⟩
  refine ⟨listMac_of_records hmark hend hnames hrecords,
    listMac_of_records hmark' hend' hnames' hrecords', fun r _ => ?_⟩
  exact forall₂_renamed_iff r.tokens (.cons (.same rfl) .nil)

theorem recordBelow_of_one {src : Source} {r : Record} {behind n : Nat}
    (hoffsets : recordOffsets src 1 = [1]) (hrecord : recordAt src 1 = .ok (r, behind))
    (hle : behind ≤ n) : List.Forall₂ (RecordBelow n src) (recordOffsets src 1) [r] := by
  rw [hoffsets]
  exact .cons ⟨behind, hrecord, hle⟩ .nil

/-- A file with two names and one line, in which all three keywords look back. -/
def twoNames (first second : Bytes) : Source :=
  .ofBytes ([0xF1, 0x00, 0x10, 0x00, 0x01, 0x00, 0x00, 0x3A, 0x8E, 0x02, 0x00, 0x01, 0xEC, 0x3A, 0xAF,
    0xE8, 0x00, 0x00, 0x00, 0x00, 0x00] ++ encodeName first ++ encodeName second)

/-- The record of this file. -/
def twoNamesRecord : Record :=
  ⟨none, 0, [.name .variable 0, .char ':', .byte 0x8E, .name .label 1, .byte 0xEC, .char ':',
    .byte 0xAF, .byte 0xE8]⟩

/-- In this file longer names change nothing else. -/
theorem twoNames_replaced :
    Command.listMac (twoNames [0x41] [0x42]) = .printed none (.ofLines ["AELSEB+'"]) ∧
      Command.listMac (twoNames [0x4E, 0x45, 0x57] [0x4F, 0x4C, 0x44]) =
        .printed none (.ofLines ["NEWELSEOLD+'"]) ∧
      List.Forall₂ (Piece.Renamed ["A", "B"] ["NEW", "OLD"]) (twoNamesRecord.pieces ["A", "B"])
        (twoNamesRecord.pieces ["NEW", "OLD"]) := by
  have hmark : byteAt (twoNames [0x41] [0x42]) 0 = .ok mark := rfl
  have hend : recordsEnd (twoNames [0x41] [0x42]) 1 = .ok 19 :=
    recordsEnd_of_next rfl (recordsEnd_of_end rfl)
  have hoffsets : recordOffsets (twoNames [0x41] [0x42]) 1 = [1] :=
    recordOffsets_of_next rfl (recordOffsets_of_end rfl)
  have htokens : tokensAt (twoNames [0x41] [0x42]) 4 = .ok (twoNamesRecord.tokens, 17) :=
    tokensAt_of_next rfl (tokensAt_of_next rfl (tokensAt_of_next rfl (tokensAt_of_next rfl
      (tokensAt_of_next rfl (tokensAt_of_next rfl (tokensAt_of_next rfl (tokensAt_of_next rfl
        (tokensAt_of_zero rfl))))))))
  have hrecord : recordAt (twoNames [0x41] [0x42]) 1 = .ok (twoNamesRecord, 17) :=
    recordAt_eq_ok_iff.mpr ⟨0x10, rfl, rfl, rfl, by simp [twoNamesRecord], htokens⟩
  have hrecords := recordBelow_of_one hoffsets hrecord (show 17 ≤ namesStart 19 by decide)
  have hnames : readNames (twoNames [0x41] [0x42]) (namesStart 19) = .ok ["A", "B"] :=
    readNames_of_rest (by decide) rfl
  have hnames' : readNames (twoNames [0x4E, 0x45, 0x57] [0x4F, 0x4C, 0x44]) (namesStart 19) =
      .ok ["NEW", "OLD"] := readNames_of_rest (by decide) rfl
  have hfront : (twoNames [0x41] [0x42]).SameFront (namesStart 19)
      (twoNames [0x4E, 0x45, 0x57] [0x4F, 0x4C, 0x44]) := rfl
  obtain ⟨hlist, hlist', hiff⟩ := names_replaced_iff hmark hend hrecords hnames hfront hnames'
  exact ⟨hlist, hlist', (hiff _ List.mem_cons_self).mpr (by decide)⟩

/-- A file with one record, which has no line number, is listed with its line. -/
theorem listMac_of_one {src : Source} {word next indent behind : Nat} {names : List String}
    {tokens : List Token} (hmark : byteAt src 0 = .ok mark)
    (hfirst : nextRecord src 1 = .ok (some (false, next))) (hlast : nextRecord src next = .ok none)
    (hnames : readNames src (namesStart (next + 2)) = .ok names)
    (hword : src.natBE 1 2 = .ok word) (hbit : word.testBit 15 = false)
    (hindent : byteAt src 3 = .ok indent) (htokens : tokensAt src 4 = .ok (tokens, behind)) :
    Command.listMac src =
      .printed none (.ofLines [joined (Record.pieces names ⟨none, indent, tokens⟩)]) := by
  have hoffsets := recordOffsets_of_next hfirst (recordOffsets_of_end hlast)
  have hrecord : recordAt src 1 = .ok (⟨none, indent, tokens⟩, behind) :=
    recordAt_eq_ok_iff.mpr ⟨word, hword, hbit, hindent, by simp, htokens⟩
  exact listMac_of_records hmark (recordsEnd_of_next hfirst (recordsEnd_of_end hlast)) hnames
    (recordBelow_of_one hoffsets hrecord (Nat.le_refl behind))

/-- A file with one name, which has a plus sign behind it. -/
def plusSign (name : Bytes) : Source :=
  .ofBytes ([0xF1, 0x00, 0x09, 0x00, 0x01, 0x00, 0x00, 0xEC, 0x31, 0x00, 0x00, 0x00, 0x00] ++
    encodeName name)

/-- The tokens of this file. -/
def plusSignTokens : List Token :=
  [.name .variable 0, .byte 0xEC, .char '1']

/-- A file with one name and no reference to it. The last token of its line has only its first byte in
front of the word that ends the records. -/
def cutNumber (name : Bytes) : Source :=
  .ofBytes ([0xF1, 0x00, 0x05, 0x00, 0x58, 0x0E, 0x00, 0x00, 0x00] ++ encodeName name)

/-- A name that ends with `WHILE` makes the plus sign behind it go away. And where the tokens of a line
run into the identifier table, another name changes the line also without a reference. -/
theorem other_names_change_more :
    (Command.listMac (plusSign [0x41]) = .printed none (.ofLines ["A+1"]) ∧
      Command.listMac (plusSign [0x44, 0x4F, 0x57, 0x48, 0x49, 0x4C, 0x45]) =
        .printed none (.ofLines ["DOWHILE1"])) ∧
    Command.listMac (cutNumber [0x00]) = .printed none (.ofLines ["X1"]) ∧
      Command.listMac (cutNumber [0x31, 0x00]) = .printed none (.ofLines ["X21"]) := by
  have hshort : readNames (plusSign [0x41]) (namesStart 12) = .ok ["A"] :=
    readNames_of_rest (by decide) rfl
  have hlong : readNames (plusSign [0x44, 0x4F, 0x57, 0x48, 0x49, 0x4C, 0x45]) (namesStart 12) =
      .ok ["DOWHILE"] := readNames_of_rest (by decide) rfl
  have hzero : readNames (cutNumber [0x00]) (namesStart 8) = .ok ["\x00"] :=
    readNames_of_rest (by decide) rfl
  have hdigit : readNames (cutNumber [0x31, 0x00]) (namesStart 8) = .ok ["1\x00"] :=
    readNames_of_rest (by decide) rfl
  -- the first two files have the same tokens, the other two do not
  have hshort' : tokensAt (plusSign [0x41]) 4 = .ok (plusSignTokens, 10) :=
    tokensAt_of_next rfl (tokensAt_of_next rfl (tokensAt_of_next rfl (tokensAt_of_zero rfl)))
  have hlong' : tokensAt (plusSign [0x44, 0x4F, 0x57, 0x48, 0x49, 0x4C, 0x45]) 4 =
      .ok (plusSignTokens, 10) :=
    tokensAt_of_next rfl (tokensAt_of_next rfl (tokensAt_of_next rfl (tokensAt_of_zero rfl)))
  have hzero' : tokensAt (cutNumber [0x00]) 4 = .ok ([.char 'X', .decimal .dword 1], 11) :=
    tokensAt_of_next rfl (tokensAt_of_next rfl (tokensAt_of_zero rfl))
  have hdigit' : tokensAt (cutNumber [0x31, 0x00]) 4 =
      .ok ([.char 'X', .decimal .dword 2, .char '1'], 12) :=
    tokensAt_of_next rfl (tokensAt_of_next rfl (tokensAt_of_next rfl (tokensAt_of_zero rfl)))
  refine ⟨⟨?_, ?_⟩, ?_, ?_⟩
  · rw [listMac_of_one rfl rfl rfl hshort rfl rfl rfl hshort']
    rfl
  · rw [listMac_of_one rfl rfl rfl hlong rfl rfl rfl hlong']
    rfl
  · rw [listMac_of_one rfl rfl rfl hzero rfl rfl rfl hzero']
    rfl
  · rw [listMac_of_one rfl rfl rfl hdigit rfl rfl rfl hdigit']
    rfl

end Mac

end SavedBasic
