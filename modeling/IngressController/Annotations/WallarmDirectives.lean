import IngressController.Annotations.Wallarm
import IngressController.Nginx.ConfBlock

/-! # Wallarm values in the generated configuration

Both location templates write one `wallarm_block_page` for every piece of a block page, one
after the other, and one `wallarm_partner_client_uuid`. What NGINX reads there is compared with
the words of the value.
-/

namespace IngressController.Configs

open GoString Utf8 List
open String (join utf8EncodeChar toList_append toList ofList ofList_toList toList_ofList)
open Option (mem_some_iff mem_def)
open Bool (or_eq_true and_eq_true)
open Nginx (ConfBlock isConfSpace plainWord startsWord)
open Nginx.ConfBlock (between joinWords directiveText)
open Validation (trimmed isPaddedOption isPaddedPiece isPartnerClientUUID)

/-- The line break and indentation before a directive in the templates of the two versions. -/
def templateIndents : List String := ["\n\t\t", "\n        "]

def blockPageDirective : String := "wallarm_block_page"

def partnerClientUUIDDirective : String := "wallarm_partner_client_uuid"

/-- `range (split .BlockPage ";")` in the location templates. -/
def renderBlockPage (indent blockPage : String) : String :=
  if blockPage = "" then ""
  else indent ++ join ((split blockPage ';').map fun piece =>
    blockPageDirective ++ " " ++ piece ++ ";")

def renderPartnerClientUUID (indent uuid : String) : String :=
  if uuid = "" then "" else indent ++ partnerClientUUIDDirective ++ " " ++ uuid ++ ";"

def words (value : String) : List Bytes :=
  ((split value ' ').filter (· ≠ "")).map fun word => encode word.toList

/-- NGINX reads the text as exactly these directives, whatever stands before it in the block. -/
def ReadAs (text : String) (directives : List (List Bytes)) : Prop :=
  ∀ before, (between before).read (encode text.toList) =
    .more (between (before ++ directives))

def blockPageDirectives (blockPage : String) : List (List Bytes) :=
  if blockPage = "" then []
  else (split blockPage ';').map fun piece => encode blockPageDirective.toList :: words piece

def partnerClientUUIDDirectives (uuid : String) : List (List Bytes) :=
  if uuid = "" then [] else [encode partnerClientUUIDDirective.toList :: words uuid]

/-! ## Words and bytes -/

/-- A character that cannot start anything but a word. -/
def isOrdinary (c : Char) : Bool := c ∉ [';', '\x7b', '\x7d', '#', '\\', '"', '\'']

/-- What follows the leading white space of a word is ordinary. -/
def StartsOrdinary (word : List Char) : Prop :=
  ∀ c ∈ (word.dropWhile isSpace).head?, isOrdinary c = true

theorem isConfSpace_iff (b : UInt8) :
    isConfSpace b = true ↔ b.toNat = 32 ∨ b.toNat = 9 ∨ b.toNat = 13 ∨ b.toNat = 10 := by
  simp only [isConfSpace, or_eq_true, decide_eq_true_eq, ← UInt8.toNat_inj]
  simp [Char.toUInt8, or_assoc]

theorem startsWord_iff (b : UInt8) : startsWord b = true ↔
    ¬ isConfSpace b = true ∧ b.toNat ∉ [59, 123, 125, 35, 92, 34, 39] := by
  simp only [startsWord, and_eq_true, decide_eq_true_eq, ne_eq, ← UInt8.toNat_inj]
  simp [Char.toUInt8, and_assoc]

variable {c : Char}

theorem isSpace_of_toNat (h : c.toNat = 32 ∨ c.toNat = 9 ∨ c.toNat = 13 ∨ c.toNat = 10) :
    isSpace c = true := by
  rcases h with h | h | h | h <;> simp [isSpace, h]

theorem toNat_of_isOrdinary (h : isOrdinary c = true) :
    c.toNat ∉ [59, 123, 125, 35, 92, 34, 39] := by
  simp only [isOrdinary, decide_eq_true_eq, mem_cons, not_mem_nil, or_false,
    ← Char.toNat_inj] at h ⊢
  exact h

variable {w : List Char}

/-- The first byte of a word after NGINX's white space. -/
theorem startsWord_encode (h : StartsOrdinary w) :
    ∀ b ∈ ((encode w).dropWhile isConfSpace).head?, startsWord b = true := by
  induction w with
  | nil => simp
  | cons c w ih =>
    rw [encode_cons]
    by_cases hascii : c.toNat < 128
    · have hbyte : (UInt8.ofNat c.toNat).toNat = c.toNat := by
        rw [UInt8.toNat_ofNat', Nat.mod_eq_of_lt (by omega)]
      rw [encodeChar_ascii hascii, singleton_append]
      by_cases hconf : isConfSpace (UInt8.ofNat c.toNat) = true
      · rw [dropWhile_cons_of_pos hconf]
        rw [isConfSpace_iff, hbyte] at hconf
        refine ih ?_
        rwa [StartsOrdinary, dropWhile_cons_of_pos (isSpace_of_toNat hconf)] at h
      rw [dropWhile_cons_of_neg hconf]
      simp only [head?_cons, mem_some_iff, forall_eq']
      rw [startsWord_iff, hbyte]
      refine ⟨hconf, ?_⟩
      cases hspace : isSpace c with
      | true =>
        -- the other white space of ASCII is no white space to NGINX
        simp only [isSpace, or_eq_true, and_eq_true, decide_eq_true_eq] at hspace
        simp only [mem_cons, not_mem_nil, or_false, not_or]
        omega
      | false =>
        refine toNat_of_isOrdinary (h c ?_)
        rw [dropWhile_cons_of_neg (by simp [hspace])]
        rfl
    · obtain ⟨hne, hwide⟩ := encodeChar_wide (c := c) (by omega)
      cases hbytes : utf8EncodeChar c with
      | nil => exact absurd hbytes hne
      | cons b bytes =>
        have hb := hwide b (by simp [hbytes])
        have hconf : ¬ isConfSpace b = true := by
          rw [isConfSpace_iff]
          omega
        rw [cons_append, dropWhile_cons_of_neg hconf]
        simp only [head?_cons, mem_some_iff, forall_eq']
        rw [startsWord_iff]
        refine ⟨hconf, ?_⟩
        simp only [mem_cons, not_mem_nil, or_false, not_or]
        omega

theorem isWord_encode (hsemi : ';' ∉ w) (hblank : ' ' ∉ w) (h : StartsOrdinary w) :
    ConfBlock.IsWord (encode w) where
  semicolon hmem := by
    obtain ⟨c, hc, heq⟩ := mem_encode_ascii (by decide) hmem
    obtain rfl : c = ';' := Char.toNat_inj.mp heq
    exact hsemi hc
  blank hmem := by
    obtain ⟨c, hc, heq⟩ := mem_encode_ascii (by decide) hmem
    obtain rfl : c = ' ' := Char.toNat_inj.mp heq
    exact hblank hc
  starts := startsWord_encode h

theorem joinWords_encode (ws : List (List Char)) :
    joinWords (ws.map encode) = encode ([' '].intercalate ws) := by
  induction ws with
  | nil => rfl
  | cons w ws ih =>
    cases ws with
    | nil => simp [joinWords, intercalate]
    | cons w' ws =>
      rw [map_cons, map_cons, joinWords, ← map_cons, ih]
      · simp [intercalate, encode_cons]
        rfl
      · simp

/-- The words of a value in source order, empty ones included, make up its bytes. -/
theorem joinWords_splitOn (cs : List Char) :
    joinWords ((cs.splitOn ' ').map encode) = encode cs := by
  rw [joinWords_encode, intercalate_splitOn]

variable {cs : List Char}

theorem encode_eq_nil : encode cs = [] ↔ cs = [] := by
  cases cs with
  | nil => simp
  | cons c cs =>
    rw [encode_cons]
    by_cases hascii : c.toNat < 128
    · simp [encodeChar_ascii hascii]
    · simp [(encodeChar_wide (c := c) (by omega)).1]

/-- The words of a value, empty ones included. -/
def allWords (value : String) : List Bytes := (value.toList.splitOn ' ').map encode

theorem words_eq (value : String) : words value = (allWords value).filter (· ≠ []) := by
  unfold words split allWords
  induction value.toList.splitOn ' ' with
  | nil => rfl
  | cons w ws ih =>
    have hnil : encode w = [] ↔ w = [] := encode_eq_nil
    by_cases hw : w = []
    · simpa [hw] using ih
    · simpa [hw, hnil] using ih

theorem read_blank {bytes rest : Bytes} {before : List (List Bytes)}
    (h : ∀ b ∈ bytes, isConfSpace b = true) :
    (between before).read (bytes ++ rest) = (between before).read rest := by
  induction bytes with
  | nil => rfl
  | cons b bytes ih =>
    rw [cons_append, between, ConfBlock.read_space (h b (by simp))]
    exact ih fun c hc => h c (by simp [hc])

theorem encode_join (name : String) (values : List String) :
    encode (join (values.map fun value => name ++ " " ++ value ++ ";")).toList =
      (values.map allWords).flatMap (directiveText (encode name.toList)) := by
  have hblank : utf8EncodeChar ' ' = [' '.toUInt8] := by decide
  have hsemi : utf8EncodeChar ';' = [';'.toUInt8] := by decide
  induction values with
  | nil => rfl
  | cons value values ih =>
    rw [map_cons, String.join_cons, toList_append, encode_append, ih, map_cons,
      flatMap_cons, directiveText, allWords, joinWords_splitOn]
    simp [toList_append, encode_cons, hblank, hsemi]

/-- Directives of one name, one for each value, are read as their words exactly if all the words
are plain. -/
theorem readAs_iff {indent name : String} {values : List String}
    (hindent : ∀ b ∈ encode indent.toList, isConfSpace b = true)
    (hname : ConfBlock.IsWord (encode name.toList)) (hne : encode name.toList ≠ [])
    (hplain : plainWord false (encode name.toList) = true)
    (hsemi : ∀ value ∈ values, ';' ∉ value.toList)
    (hstarts : ∀ value ∈ values, ∀ w ∈ value.toList.splitOn ' ', StartsOrdinary w) :
    ReadAs (indent ++ join (values.map fun value => name ++ " " ++ value ++ ";"))
        (values.map fun value => encode name.toList :: words value) ↔
      ∀ value ∈ values, ∀ w ∈ value.toList.splitOn ' ', plainWord false (encode w) = true := by
  have hwords : ∀ ws ∈ values.map allWords, ∀ w ∈ ws, ConfBlock.IsWord w := by
    simp only [allWords, forall_mem_map]
    intro value hvalue w hw
    refine isWord_encode (fun hmem => hsemi value hvalue ?_) (notMem_of_mem_splitOn hw)
      (hstarts value hvalue w hw)
    exact (mem_of_mem_splitOn hw hmem).1
  have hread : ∀ before : List (List Bytes),
      (between before).read (encode (indent ++ join
          (values.map fun value => name ++ " " ++ value ++ ";")).toList) =
        (between before).read
          ((values.map allWords).flatMap (directiveText (encode name.toList))) := by
    intro before
    rw [toList_append, encode_append, read_blank hindent, encode_join]
  have hdirectives : (values.map fun value => encode name.toList :: words value) =
      (values.map allWords).map fun ws => encode name.toList :: ws.filter (· ≠ []) := by
    simp [words_eq]
  have hplainWords : (∀ ws ∈ values.map allWords, ∀ w ∈ ws, plainWord false w = true) ↔
      ∀ value ∈ values, ∀ w ∈ value.toList.splitOn ' ', plainWord false (encode w) = true := by
    simp [allWords]
  rw [← hplainWords]
  unfold ReadAs
  simp only [hread, hdirectives]
  constructor
  · intro h
    exact (ConfBlock.read_directives_iff hname hne hplain hwords).mp (h [])
  · intro h before
    exact (ConfBlock.read_directives_iff hname hne hplain hwords).mpr h

/-- Every word of a text starts ordinarily; `fresh` until something of the current word that is
not white space has been read. -/
def wordsStart : Bool → List Char → Bool
  | _, [] => true
  | fresh, c :: cs =>
    if c = ' ' then wordsStart true cs
    else if isSpace c then wordsStart fresh cs
    else (!fresh || isOrdinary c) && wordsStart false cs

theorem wordsStart_spaces (fresh : Bool) (h : ∀ c ∈ cs, isSpace c = true) :
    wordsStart fresh cs = true := by
  induction cs generalizing fresh with
  | nil => rfl
  | cons c cs ih =>
    have hrest := fun fresh => ih fresh fun d hd => h d (by simp [hd])
    simp [wordsStart, h c (by simp), hrest]

theorem wordsStart_append_spaces {trail : List Char} (fresh : Bool)
    (h : ∀ c ∈ trail, isSpace c = true) : wordsStart fresh (cs ++ trail) = wordsStart fresh cs := by
  induction cs generalizing fresh with
  | nil => simpa [wordsStart] using wordsStart_spaces fresh h
  | cons c cs ih => simp [wordsStart, ih]

theorem wordsStart_spaces_append {lead : List Char} (h : ∀ c ∈ lead, isSpace c = true) :
    wordsStart true (lead ++ cs) = wordsStart true cs := by
  induction lead with
  | nil => rfl
  | cons c lead ih =>
    simp [wordsStart, h c (by simp), ih fun d hd => h d (by simp [hd])]

theorem wordsStart_iff (cs : List Char) :
    ∃ first rest, cs.splitOn ' ' = first :: rest ∧
      ∀ fresh, wordsStart fresh cs = true ↔
        (fresh = true → StartsOrdinary first) ∧ ∀ w ∈ rest, StartsOrdinary w := by
  induction cs with
  | nil => exact ⟨[], [], rfl, by simp [wordsStart, StartsOrdinary]⟩
  | cons c cs ih =>
    obtain ⟨first, rest, hsplit, ih⟩ := ih
    rw [splitOn_cons]
    by_cases hc : c = ' '
    · refine ⟨[], first :: rest, by simp [hc, hsplit], fun fresh => ?_⟩
      rw [wordsStart, if_pos hc, ih, forall_mem_cons]
      simp [StartsOrdinary]
    refine ⟨c :: first, rest, by simp [hc, hsplit], fun fresh => ?_⟩
    rw [wordsStart, if_neg hc]
    cases hspace : isSpace c with
    | true =>
      have hfirst : StartsOrdinary (c :: first) ↔ StartsOrdinary first := by
        rw [StartsOrdinary, dropWhile_cons_of_pos hspace, StartsOrdinary]
      rw [if_pos rfl, ih, hfirst]
    | false =>
      have hfirst : StartsOrdinary (c :: first) ↔ isOrdinary c = true := by
        rw [StartsOrdinary, dropWhile_cons_of_neg (by simp [hspace])]
        simp
      rw [if_neg (by simp), hfirst, and_eq_true, ih]
      cases fresh <;> simp

theorem wordsStart_iff_forall (cs : List Char) :
    wordsStart true cs = true ↔ ∀ w ∈ cs.splitOn ' ', StartsOrdinary w := by
  obtain ⟨first, rest, hsplit, hiff⟩ := wordsStart_iff cs
  rw [hiff, hsplit, forall_mem_cons]
  simp

/-- White space around a text does not change how its words start. -/
theorem startsOrdinary_of_trimSpace (h : ∀ w ∈ (trimSpace cs).splitOn ' ', StartsOrdinary w) :
    ∀ w ∈ cs.splitOn ' ', StartsOrdinary w := by
  obtain ⟨lead, trail, heq, hlead, htrail⟩ := eq_append_trimSpace cs
  rw [← wordsStart_iff_forall] at h ⊢
  rw [heq, wordsStart_spaces_append hlead, wordsStart_append_spaces true htrail, h]

theorem startsOrdinary_iff (w : List Char) :
    StartsOrdinary w ↔ ∀ c ∈ (trimSpace w).head?, isOrdinary c = true := by
  rw [StartsOrdinary, head?_trimSpace]

variable {s : String}

theorem toList_of_split_pair {key value : String} {sep : Char} (h : split s sep = [key, value]) :
    s.toList = key.toList ++ sep :: value.toList := by
  have hjoin : [sep].intercalate (s.toList.splitOn sep) = s.toList := intercalate_splitOn sep
  have hpieces : s.toList.splitOn sep = [key.toList, value.toList] := by
    have := congrArg (map toList) h
    simpa [split, Function.comp_def] using this
  rw [hpieces] at hjoin
  simpa [intercalate] using hjoin.symm

theorem isSpace_of_all (h : (cs.all fun c => !isSpace c) = true) : ∀ c ∈ cs, isSpace c = false := by
  intro c hc
  simpa using all_eq_true.mp h c hc

theorem isSpace_of_types {value : String}
    (h : (split value ',').all (· ∈ ["acl_ip", "acl_source", "attack"]) = true) :
    ∀ c ∈ value.toList, isSpace c = false := by
  intro c hc
  by_cases hcomma : c = ','
  · subst hcomma
    decide
  obtain ⟨piece, hpiece, hmem⟩ := exists_piece_of_mem hc hcomma
  have htype := all_eq_true.mp h (ofList piece) (mem_map.mpr ⟨piece, hpiece, rfl⟩)
  have hchars : ∀ text ∈ ["acl_ip", "acl_source", "attack"],
      (text.toList.all fun c => !isSpace c) = true := by decide
  exact isSpace_of_all (hchars _ (by simpa using htype)) c (by simpa using hmem)

variable {optional : String}

/-- An option is not empty, has no white space and starts with a letter. -/
theorem isBlockPageOption_chars (h : isBlockPageOption optional = true) :
    (∃ c ∈ optional.toList.head?, isOrdinary c = true) ∧
      ∀ c ∈ optional.toList, isSpace c = false := by
  have hoption : ∃ key value, split optional '=' = [key, value] ∧
      key ∈ ["response_code", "type"] ∧ ∀ c ∈ value.toList, isSpace c = false := by
    unfold isBlockPageOption at h
    split at h
    · rename_i key value hsplit
      simp only [or_eq_true, and_eq_true, decide_eq_true_eq] at h
      rcases h with ⟨rfl, hvalue⟩ | ⟨rfl, hvalue⟩
      · exact ⟨_, value, hsplit, by simp, isSpace_of_parseInt hvalue⟩
      · exact ⟨_, value, hsplit, by simp, isSpace_of_types hvalue⟩
    · cases h
  obtain ⟨key, value, hsplit, hkey, hvalue⟩ := hoption
  have hchars : ∀ key ∈ ["response_code", "type"],
      key.toList.head?.any isOrdinary = true ∧ (key.toList.all fun c => !isSpace c) = true := by
    decide
  obtain ⟨c, hc, hordinary⟩ := (Option.any_eq_true _ _).mp (hchars key hkey).1
  have hspace := isSpace_of_all (hchars key hkey).2
  rw [toList_of_split_pair hsplit]
  refine ⟨⟨c, ?_, hordinary⟩, ?_⟩
  · rw [head?_append, mem_def.mp hc]
    rfl
  intro d hd
  rcases mem_append.mp hd with hd | hd
  · exact hspace d hd
  · rcases mem_cons.mp hd with rfl | hd
    · decide
    · exact hvalue d hd

theorem isPageStart_spec (h : isPageStart c = true) : isSpace c = false ∧ isOrdinary c = true := by
  simp only [isPageStart, decide_eq_true_eq, mem_cons, not_mem_nil, or_false] at h
  rcases h with rfl | rfl | rfl | rfl <;> decide

variable {piece : String}

theorem mem_split_iff {sep : Char} : piece ∈ split s sep ↔ piece.toList ∈ s.toList.splitOn sep := by
  rw [split, mem_map]
  constructor
  · rintro ⟨cs, hcs, rfl⟩
    simpa using hcs
  · intro h
    exact ⟨piece.toList, h, ofList_toList⟩

theorem startsOrdinary_of_isPaddedOption (h : isPaddedOption optional = true) :
    StartsOrdinary optional.toList := by
  rw [startsOrdinary_iff]
  simp only [isPaddedOption, trimmed, or_eq_true] at h
  rcases h with h | h
  · have hnil : trimSpace optional.toList = [] := by
      simpa using congrArg toList (of_decide_eq_true h)
    simp [hnil]
  · obtain ⟨⟨c, hc, hordinary⟩, -⟩ := isBlockPageOption_chars h
    rw [toList_ofList] at hc
    intro d hd
    rw [mem_def.mp hc, mem_some_iff] at hd
    rwa [← hd]

/-- The words of a piece the Policy validator accepts do not start with a quote, a brace, a
comment or an escape. -/
theorem startsOrdinary_of_isPaddedPiece (h : isPaddedPiece piece = true) :
    ∀ w ∈ piece.toList.splitOn ' ', StartsOrdinary w := by
  apply startsOrdinary_of_trimSpace
  simp only [isPaddedPiece, or_eq_true, decide_eq_true_eq] at h
  rcases h with h | h
  · have hnil : trimSpace piece.toList = [] := by
      simpa [trimmed] using congrArg toList h
    simp [hnil, StartsOrdinary]
  intro w hw
  have hw' : ofList w ∈ split (trimmed piece) ' ' := by
    rw [mem_split_iff]
    simpa [trimmed] using hw
  split at h
  · rename_i page options hsplit
    rw [hsplit] at hw'
    simp only [and_eq_true, Option.any_eq_true, all_eq_true] at h
    obtain ⟨⟨c, hc, hstart⟩, hoptions⟩ := h
    rcases mem_cons.mp hw' with heq | hmem
    · obtain ⟨hspace, hordinary⟩ := isPageStart_spec hstart
      rw [← heq, toList_ofList] at hc
      cases w with
      | nil => cases hc
      | cons d w =>
        cases hc
        intro e he
        rw [dropWhile_cons_of_neg (by simp [hspace])] at he
        cases he
        exact hordinary
    · simpa using startsOrdinary_of_isPaddedOption (hoptions _ hmem)
  · cases h

/-- No white space around a word, and a word at all. -/
def isTightOption (optional : String) : Bool := optional ≠ "" && trimmed optional = optional

/-- A piece that does not start with white space and whose options have none around them. -/
def isTightPiece (piece : String) : Bool :=
  match split piece ' ' with
  | page :: options =>
    page.toList.head?.any (fun c => !isSpace c) && options.all isTightOption
  | [] => false

theorem isBlockPageOption_iff (optional : String) :
    isBlockPageOption optional = true ↔
      isPaddedOption optional = true ∧ isTightOption optional = true := by
  constructor
  · intro h
    obtain ⟨⟨c, hc, -⟩, hspace⟩ := isBlockPageOption_chars h
    have htrim : trimmed optional = optional := by
      rw [trimmed, trimSpace_eq_self (fun d hd => hspace d (mem_of_mem_head? hd))
        (fun d hd => hspace d (mem_of_getLast? hd)), ofList_toList]
    have hne : optional ≠ "" := by
      rintro rfl
      simp at hc
    simp [isPaddedOption, isTightOption, htrim, hne, h]
  · rintro ⟨hpadded, htight⟩
    simp only [isTightOption, and_eq_true, decide_eq_true_eq] at htight
    obtain ⟨hne, htrim⟩ := htight
    simpa [isPaddedOption, htrim, hne] using hpadded

theorem getLast_suffix_intercalate {ws : List (List Char)} (sep : Char) (h : w ∈ ws.getLast?) :
    w <:+ [sep].intercalate ws := by
  induction ws with
  | nil => cases h
  | cons v ws ih =>
    cases ws with
    | nil =>
      cases h
      simp [intercalate]
    | cons v' ws =>
      have hjoin : [sep].intercalate (v :: v' :: ws) =
          v ++ sep :: [sep].intercalate (v' :: ws) := by
        simp [intercalate]
      rw [getLast?_cons_cons] at h
      rw [hjoin]
      exact (ih h).trans ((suffix_cons _ _).trans (suffix_append _ _))

variable {page : String}

theorem piece_words {options : List String} (h : split piece ' ' = page :: options) :
    piece.toList.splitOn ' ' = page.toList :: options.map toList ∧
      (∀ c ∈ page.toList.head?, c ∈ piece.toList.head?) ∧
      (options = [] → piece = page) := by
  have hwords : piece.toList.splitOn ' ' = page.toList :: options.map toList := by
    have := congrArg (map toList) h
    simpa [split, Function.comp_def] using this
  have hjoin : [' '].intercalate (piece.toList.splitOn ' ') = piece.toList :=
    intercalate_splitOn ' '
  rw [hwords] at hjoin
  refine ⟨hwords, ?_, ?_⟩
  · intro c hc
    obtain ⟨pieces, hfirst⟩ := splitOn_eq_takeWhile_cons ' ' piece.toList
    rw [hwords, cons.injEq] at hfirst
    rw [hfirst.1] at hc
    cases hlist : piece.toList with
    | nil => simp [hlist] at hc
    | cons d ds =>
      rw [hlist] at hc
      by_cases hd : d = ' ' <;> simp_all
  · rintro rfl
    exact String.toList_inj.mp (by simpa [intercalate] using hjoin.symm)

theorem getLast_of_isTightOption (h : isTightOption optional = true) :
    ∃ c ∈ optional.toList.getLast?, isSpace c = false := by
  simp only [isTightOption, and_eq_true, decide_eq_true_eq] at h
  obtain ⟨hne, htrim⟩ := h
  have hlist : trimSpace optional.toList = optional.toList := by
    simpa [trimmed] using congrArg toList htrim
  cases hlast : optional.toList.getLast? with
  | none =>
    rw [getLast?_eq_none_iff] at hlast
    exact absurd (String.toList_inj.mp (by simpa using hlast)) hne
  | some c => exact ⟨c, rfl, isSpace_getLast_trimSpace (hlist ▸ hlast)⟩

theorem trimmed_of_tight {options : List String} (hsplit : split piece ' ' = page :: options)
    (hne : options ≠ []) (hc : c ∈ page.toList.head?) (hspace : isSpace c = false)
    (htight : ∀ o ∈ options, isTightOption o = true) : trimmed piece = piece := by
  obtain ⟨hwords, hhead, -⟩ := piece_words hsplit
  obtain ⟨d, hd, hdspace⟩ := getLast_of_isTightOption (htight _ (getLast_mem hne))
  have hsuffix : (options.getLast hne).toList <:+ piece.toList := by
    have hjoin : [' '].intercalate (piece.toList.splitOn ' ') = piece.toList :=
      intercalate_splitOn ' '
    rw [← hjoin, hwords]
    apply getLast_suffix_intercalate
    simp [getLast?_cons, getLast?_map, getLast?_eq_some_getLast hne]
  rw [trimmed, trimSpace_eq_self, ofList_toList]
  · intro e he
    rw [mem_def.mp (hhead c hc), mem_some_iff] at he
    rwa [← he]
  · intro e he
    obtain ⟨before, hbefore⟩ := hsuffix
    rw [← hbefore, getLast?_append, mem_def.mp hd, Option.some_or, mem_some_iff] at he
    rwa [← he]

theorem split_trimmed_page (hblank : ' ' ∉ page.toList) (hc : c ∈ page.toList.head?)
    (hspace : isSpace c = false) :
    split (trimmed page) ' ' = [trimmed page] ∧ c ∈ (trimmed page).toList.head? := by
  have hhead : (trimSpace page.toList).head? = some c := by
    rw [head?_trimSpace]
    cases hlist : page.toList with
    | nil => simp [hlist] at hc
    | cons d ds =>
      rw [hlist, head?_cons, mem_some_iff] at hc
      rw [hc, dropWhile_cons_of_neg (by simp [hspace]), head?_cons]
  have hmem : ' ' ∉ trimSpace page.toList := by
    obtain ⟨lead, trail, heq, -, -⟩ := eq_append_trimSpace page.toList
    intro hin
    rw [heq] at hblank
    exact hblank (by simp [hin])
  refine ⟨?_, by simpa [trimmed] using hhead⟩
  rw [split, trimmed, toList_ofList, splitOn_eq_singleton hmem]
  rfl

/-- The annotation check accepts the pieces that the Policy validator accepts and that have no
white space beyond single blanks. -/
theorem isBlockPagePiece_iff (piece : String) :
    isBlockPagePiece piece = true ↔ isPaddedPiece piece = true ∧ isTightPiece piece = true := by
  cases hsplit : split piece ' ' with
  | nil => exact absurd hsplit (split_ne_nil piece ' ')
  | cons page options =>
    obtain ⟨hwords, -, hsingle⟩ := piece_words hsplit
    have hblank : ' ' ∉ page.toList := notMem_of_mem_splitOn (by
      rw [hwords]
      exact mem_cons_self)
    cases hpage : page.toList.head? with
    | none => simp [isBlockPagePiece, isTightPiece, hsplit, hpage]
    | some c =>
      cases hspace : isSpace c with
      | true =>
        have hstart : isPageStart c = false := by
          by_contra hstart
          simp [(isPageStart_spec (by simpa using hstart)).1] at hspace
        simp [isBlockPagePiece, isTightPiece, hsplit, hpage, hstart, hspace]
      | false =>
        by_cases hoptions : options = []
        · -- a page alone may have white space at its end
          have hpiece := hsingle hoptions
          subst hpiece hoptions
          obtain ⟨htrim, hc⟩ := split_trimmed_page hblank hpage hspace
          have hne : trimmed piece ≠ "" := by
            intro hempty
            simp [hempty] at hc
          simp [isBlockPagePiece, isTightPiece, isPaddedPiece, hsplit, hpage, hspace, htrim,
            hne, mem_def.mp hc]
        · have hiff : options.all isBlockPageOption = true ↔
              options.all isPaddedOption = true ∧ options.all isTightOption = true := by
            simp only [all_eq_true, isBlockPageOption_iff, forall₂_and]
          have hne : piece ≠ "" := by
            rintro rfl
            simp [split] at hsplit
            exact hoptions hsplit.2
          by_cases htight : options.all isTightOption = true
          · have htrim := trimmed_of_tight hsplit hoptions hpage hspace (all_eq_true.mp htight)
            simp [isBlockPagePiece, isTightPiece, isPaddedPiece, hsplit, hpage, hspace, htrim,
              hne, htight, hiff]
          · simp [isBlockPagePiece, isTightPiece, hsplit, hpage, htight, hiff]

/-! ## What is accepted -/

def annotationAcceptsBlockPage (s : String) : Prop := validateBlockPage s = some none

def annotationAcceptsUUID (s : String) : Prop := validateWallarmPartnerClientUUID s = some none

/-- Some accepted Policy has this block page. -/
def policyAcceptsBlockPage (s : String) : Prop :=
  ∃ (wallarm : Wallarm) (path : String),
    wallarm.blockPage = s ∧ Validation.validateWallarm wallarm path = some []

def policyAcceptsUUID (s : String) : Prop :=
  ∃ (wallarm : Wallarm) (path : String),
    wallarm.partnerClientUUID = s ∧ Validation.validateWallarm wallarm path = some []

theorem policyAcceptsBlockPage_iff (s : String) :
    policyAcceptsBlockPage s ↔ (split s ';').all isPaddedPiece = true := by
  have hempty : (split "" ';').all isPaddedPiece = true := by decide +kernel
  constructor
  · rintro ⟨wallarm, path, rfl, haccepted⟩
    obtain ⟨-, -, hpage, -⟩ := Validation.validateWallarm_spec.2.mp haccepted
    rcases hpage with hpage | hpage
    · rwa [hpage]
    · exact hpage
  · intro h
    refine ⟨{ mode := "block", blockPage := s }, "", rfl, Validation.validateWallarm_spec.2.mpr ?_⟩
    exact ⟨by simp, by simp, .inr h, .inl rfl⟩

theorem policyAcceptsUUID_iff (s : String) :
    policyAcceptsUUID s ↔ s = "" ∨ isPartnerClientUUID s = true := by
  constructor
  · rintro ⟨wallarm, path, rfl, haccepted⟩
    exact (Validation.validateWallarm_spec.2.mp haccepted).2.2.2
  · intro h
    refine ⟨{ mode := "block", partnerClientUUID := s }, "", rfl,
      Validation.validateWallarm_spec.2.mpr ?_⟩
    exact ⟨by simp, by simp, .inl rfl, h⟩

theorem annotationAcceptsBlockPage_iff (s : String) :
    annotationAcceptsBlockPage s ↔
      policyAcceptsBlockPage s ∧ (s = "" ∨ (split s ';').all isTightPiece = true) := by
  rw [annotationAcceptsBlockPage, validateBlockPage_ok, policyAcceptsBlockPage_iff]
  by_cases hs : s = ""
  · subst hs
    simp only [true_or, and_true, true_iff]
    decide +kernel
  · simp only [hs, false_or, all_eq_true, isBlockPagePiece_iff, forall₂_and]

theorem isConfSpace_of_mem_templateIndents {indent : String} (h : indent ∈ templateIndents) :
    ∀ b ∈ encode indent.toList, isConfSpace b = true := by
  have hall : ∀ indent ∈ templateIndents, ∀ b ∈ encode indent.toList, isConfSpace b = true := by
    decide +kernel
  exact hall indent h

theorem readAs_empty : ReadAs "" [] := by
  intro before
  rw [append_nil]
  rfl

theorem isWord_directive :
    ∀ name ∈ [blockPageDirective, partnerClientUUIDDirective],
      ConfBlock.IsWord (encode name.toList) ∧ encode name.toList ≠ [] ∧
        plainWord false (encode name.toList) = true := by
  have hchars : ∀ name ∈ [blockPageDirective, partnerClientUUIDDirective],
      ';' ∉ name.toList ∧ ' ' ∉ name.toList ∧
        (name.toList.dropWhile isSpace).head?.all isOrdinary = true ∧
        encode name.toList ≠ [] ∧ plainWord false (encode name.toList) = true := by
    decide +kernel
  intro name hname
  obtain ⟨hsemi, hblank, hstarts, hne, hplain⟩ := hchars name hname
  exact ⟨isWord_encode hsemi hblank ((Option.all_eq_true _ _).mp hstarts), hne, hplain⟩

theorem readAs_blockPage_iff (h : (split s ';').all isPaddedPiece = true) :
    (∀ indent ∈ templateIndents, ReadAs (renderBlockPage indent s) (blockPageDirectives s)) ↔
      ∀ piece ∈ split s ';', ∀ word ∈ split piece ' ',
        plainWord false (encode word.toList) = true := by
  by_cases hs : s = ""
  · subst hs
    have hplain : ∀ piece ∈ split "" ';', ∀ word ∈ split piece ' ',
        plainWord false (encode word.toList) = true := by decide +kernel
    exact ⟨fun _ => hplain, fun _ _ _ => readAs_empty⟩
  obtain ⟨hname, hne, hplainName⟩ := isWord_directive blockPageDirective (by simp)
  have hwords : (∀ piece ∈ split s ';', ∀ word ∈ split piece ' ',
      plainWord false (encode word.toList) = true) ↔
      ∀ piece ∈ split s ';', ∀ w ∈ piece.toList.splitOn ' ', plainWord false (encode w) = true := by
    simp [split]
  have hiff : ∀ indent ∈ templateIndents,
      (ReadAs (renderBlockPage indent s) (blockPageDirectives s) ↔
        ∀ piece ∈ split s ';', ∀ w ∈ piece.toList.splitOn ' ',
          plainWord false (encode w) = true) := by
    intro indent hindent
    rw [renderBlockPage, if_neg hs, blockPageDirectives, if_neg hs]
    refine readAs_iff (isConfSpace_of_mem_templateIndents hindent) hname hne hplainName ?_ ?_
    · intro piece hpiece
      exact notMem_of_mem_splitOn (mem_split_iff.mp hpiece)
    · intro piece hpiece
      exact startsOrdinary_of_isPaddedPiece (all_eq_true.mp h piece hpiece)
  rw [hwords]
  constructor
  · intro hread
    exact (hiff _ mem_cons_self).mp (hread _ mem_cons_self)
  · intro hplain indent hindent
    exact (hiff indent hindent).mpr hplain

theorem isLabelChar_iff : isLabelChar c = true ↔
    ((((48 ≤ c.toNat ∧ c.toNat ≤ 57) ∨ 97 ≤ c.toNat ∧ c.toNat ≤ 122) ∨
      65 ≤ c.toNat ∧ c.toNat ≤ 90) ∨ c.toNat = 95) ∨ c.toNat = 45 := by
  simp only [isLabelChar, isDigit, or_eq_true, and_eq_true, decide_eq_true_eq,
    Char.le_def, UInt32.le_iff_toNat_le, ← Char.toNat_inj]
  rfl

theorem isLabelChar_of_isHexDigit (h : isHexDigit c = true) : isLabelChar c = true := by
  simp only [isHexDigit, isDigit, or_eq_true, and_eq_true, decide_eq_true_eq,
    Char.le_def, UInt32.le_iff_toNat_le] at h
  change ((48 ≤ c.toNat ∧ c.toNat ≤ 57) ∨ 97 ≤ c.toNat ∧ c.toNat ≤ 102) ∨
    65 ≤ c.toNat ∧ c.toNat ≤ 70 at h
  rw [isLabelChar_iff]
  omega

theorem plainWord_label (h : ∀ c ∈ w, isLabelChar c = true) (v : Bool) :
    plainWord v (encode w) = true := by
  induction w generalizing v with
  | nil => rfl
  | cons c w ih =>
    have hc := isLabelChar_iff.mp (h c (by simp))
    have hbyte : (UInt8.ofNat c.toNat).toNat = c.toNat := by
      rw [UInt8.toNat_ofNat']
      omega
    have hconf : isConfSpace (UInt8.ofNat c.toNat) = false := by
      rw [← Bool.not_eq_true, isConfSpace_iff, hbyte]
      omega
    rw [encode_cons, encodeChar_ascii (by omega), singleton_append, Nginx.plainWord_cons,
      if_neg, hconf, ih fun d hd => h d (by simp [hd])]
    · rfl
    · rw [← UInt8.toNat_inj, hbyte]
      simp [Char.toUInt8]
      omega
    · rw [ne_eq, ← UInt8.toNat_inj, hbyte]
      simp [Char.toUInt8]
      omega

theorem startsOrdinary_label (h : ∀ c ∈ w, isLabelChar c = true) : StartsOrdinary w := by
  intro c hc
  have hmem : c ∈ w := (dropWhile_sublist isSpace).subset (mem_of_mem_head? hc)
  have hlabel := isLabelChar_iff.mp (h c hmem)
  simp only [isOrdinary, decide_eq_true_eq, mem_cons, not_mem_nil, or_false,
    ← Char.toNat_inj, not_or]
  simp
  omega

theorem label_of_partnerClientUUIDRegex (h : partnerClientUUIDRegex s = true) :
    ∀ c ∈ s.toList, isLabelChar c = true := by
  intro c hc
  simp only [partnerClientUUIDRegex, and_eq_true, all_eq_true] at h
  by_cases hdash : c = '-'
  · subst hdash
    decide
  · obtain ⟨group, hgroup, hmem⟩ := exists_piece_of_mem hc hdash
    exact isLabelChar_of_isHexDigit (h.2 group hgroup c hmem)

theorem label_of_isPartnerClientUUID (h : isPartnerClientUUID s = true) :
    ∀ word ∈ split s ' ', ∀ c ∈ word.toList, isLabelChar c = true := by
  unfold isPartnerClientUUID at h
  match hsplit : split s ' ' with
  | [] => simp
  | [uuid] =>
    rw [hsplit] at h
    simpa using label_of_partnerClientUUIDRegex h
  | [uuid, label] =>
    rw [hsplit] at h
    simp only [and_eq_true, partnerClientLabelRegex, all_eq_true] at h
    simp only [forall_mem_cons, not_mem_nil, false_implies, implies_true, and_true]
    exact ⟨label_of_partnerClientUUIDRegex h.1, h.2.2⟩
  | _ :: _ :: _ :: _ => simp [hsplit] at h

theorem notMem_of_isPartnerClientUUID (h : isPartnerClientUUID s = true) : ';' ∉ s.toList := by
  intro hmem
  obtain ⟨word, hword, hc⟩ := exists_piece_of_mem hmem (show ';' ≠ ' ' by decide)
  have := label_of_isPartnerClientUUID h (ofList word) (mem_split_iff.mpr (by simpa)) ';'
    (by simpa)
  simp [isLabelChar, isDigit] at this

theorem readAs_partnerClientUUID (h : s = "" ∨ isPartnerClientUUID s = true) :
    ∀ indent ∈ templateIndents,
      ReadAs (renderPartnerClientUUID indent s) (partnerClientUUIDDirectives s) := by
  intro indent hindent
  by_cases hs : s = ""
  · subst hs
    exact readAs_empty
  have huuid := h.resolve_left hs
  have hlabel : ∀ w ∈ s.toList.splitOn ' ', ∀ c ∈ w, isLabelChar c = true := by
    simpa [split] using label_of_isPartnerClientUUID huuid
  obtain ⟨hname, hne, hplainName⟩ := isWord_directive partnerClientUUIDDirective (by simp)
  have hread : ReadAs (indent ++ join ([s].map fun value =>
      partnerClientUUIDDirective ++ " " ++ value ++ ";"))
      ([s].map fun value => encode partnerClientUUIDDirective.toList :: words value) := by
    refine (readAs_iff (isConfSpace_of_mem_templateIndents hindent) hname hne hplainName ?_
      ?_).mpr ?_
    · simpa using notMem_of_isPartnerClientUUID huuid
    · simpa using fun w hw => startsOrdinary_label (hlabel w hw)
    · simpa using fun w hw => plainWord_label (hlabel w hw) false
  simpa [renderPartnerClientUUID, partnerClientUUIDDirectives, hs, String.append_assoc] using hread

/-- What the templates write for an accepted block page and an accepted partner client UUID is
read as meant, and the two validators accept the same values. This is so exactly if an accepted
block page has plain words only and no white space but the blank between its words, and the UUID
is not empty. -/
theorem wallarm_values_read_and_agree_iff (blockPage uuid : String) :
    ((annotationAcceptsBlockPage blockPage ∨ policyAcceptsBlockPage blockPage →
        ∀ indent ∈ templateIndents,
          ReadAs (renderBlockPage indent blockPage) (blockPageDirectives blockPage)) ∧
      (annotationAcceptsUUID uuid ∨ policyAcceptsUUID uuid →
        ∀ indent ∈ templateIndents,
          ReadAs (renderPartnerClientUUID indent uuid) (partnerClientUUIDDirectives uuid)) ∧
      (annotationAcceptsBlockPage blockPage ↔ policyAcceptsBlockPage blockPage) ∧
      (annotationAcceptsUUID uuid ↔ policyAcceptsUUID uuid)) ↔
    ((split blockPage ';').all isPaddedPiece = true →
      (∀ piece ∈ split blockPage ';', ∀ word ∈ split piece ' ',
        plainWord false (encode word.toList) = true) ∧
      (blockPage = "" ∨ (split blockPage ';').all isTightPiece = true)) ∧
    uuid ≠ "" := by
  have hpage : annotationAcceptsBlockPage blockPage ∨ policyAcceptsBlockPage blockPage ↔
      policyAcceptsBlockPage blockPage := by
    rw [annotationAcceptsBlockPage_iff]
    tauto
  have haccepts := (Validation.partnerClientUUID_spec uuid "").2.2
  have huuid : annotationAcceptsUUID uuid ∨ policyAcceptsUUID uuid →
      ∀ indent ∈ templateIndents,
        ReadAs (renderPartnerClientUUID indent uuid) (partnerClientUUIDDirectives uuid) := by
    rw [annotationAcceptsUUID, haccepts, policyAcceptsUUID_iff]
    exact fun h => readAs_partnerClientUUID (h.elim .inr id)
  have huuidAgree : (annotationAcceptsUUID uuid ↔ policyAcceptsUUID uuid) ↔ uuid ≠ "" := by
    rw [annotationAcceptsUUID, haccepts, policyAcceptsUUID_iff]
    by_cases hempty : uuid = ""
    · subst hempty
      have hrejected : isPartnerClientUUID "" = false := by decide +kernel
      simp [hrejected]
    · simp [hempty]
  rw [hpage, huuidAgree, annotationAcceptsBlockPage_iff, policyAcceptsBlockPage_iff]
  constructor
  · rintro ⟨hread, -, hagree, hne⟩
    exact ⟨fun h => ⟨(readAs_blockPage_iff h).mp (hread h), (hagree.mpr h).2⟩, hne⟩
  · rintro ⟨hgood, hne⟩
    exact ⟨fun h => (readAs_blockPage_iff h).mpr (hgood h).1, huuid,
      ⟨fun h => h.1, fun h => ⟨h, (hgood h).2⟩⟩, hne⟩

/-- A brace in an accepted page opens a block, and a page that ends in a semicolon is accepted in
a Policy although the annotation check fails on it. -/
theorem blockPage_opens_block :
    (annotationAcceptsBlockPage "/page\x7b" ∧ policyAcceptsBlockPage "/page\x7b" ∧
      ¬ ReadAs (renderBlockPage "\n\t\t" "/page\x7b") (blockPageDirectives "/page\x7b")) ∧
    policyAcceptsBlockPage "/page;" ∧ ¬ annotationAcceptsBlockPage "/page;" := by
  have hpage : (split "/page\x7b" ';').all isPaddedPiece = true := by decide +kernel
  have hsemi : (split "/page;" ';').all isPaddedPiece = true := by decide +kernel
  refine ⟨⟨?_, (policyAcceptsBlockPage_iff _).mpr hpage, ?_⟩,
    (policyAcceptsBlockPage_iff _).mpr hsemi, ?_⟩
  · unfold annotationAcceptsBlockPage
    decide +kernel
  · intro hread
    have hstopped : (ConfBlock.between []).read
        (encode (renderBlockPage "\n\t\t" "/page\x7b").toList) ≠
          .more (ConfBlock.between ([] ++ blockPageDirectives "/page\x7b")) := by
      decide +kernel
    exact hstopped (hread [])
  · unfold annotationAcceptsBlockPage
    decide +kernel

end IngressController.Configs
