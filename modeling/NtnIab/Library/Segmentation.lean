import Mathlib.Data.List.Induction
import Mathlib.Data.List.ReduceOption
import NtnIab.Library.Run

/-!
# Messages in carriers

Messages are sent in carriers. A carrier has pieces of messages in their order; only its first and
its last piece may be a part of a message, the others are whole. It says whether its first piece
starts a message and whether its last one ends one.

## Strategy

A receiver holds the message that has begun, if it has all of it so far. It goes on by `hear`,
which gets a carrier or learns that one is lost. Three laws are all that is needed of it.

* **Losses.** What is made with losses is what is made without them, less the messages with a
  piece in a lost carrier (`heard_done`). The messages carry the numbers of their carriers with
  them for this, so pieces are joined by any function.
* **Cutting.** Two carriers of which the second goes on where the first one ends make the same
  messages as the one carrier from which they were cut (`hear_glue`).
* **Numbers.** A receiver that learns of losses from the numbers of what it gets makes the same
  messages (`accepted_done`).
-/

namespace Segmentation

open Run

variable {α β γ : Type*}

@[ext]
structure Carrier (β : Type*) where
  pieces : List β
  /-- The first piece starts a message. -/
  first : Bool
  /-- The last piece ends a message. -/
  last : Bool
  deriving Repr, DecidableEq

structure Assembly (β : Type*) where
  /-- The message that has begun. -/
  opened : Option β := none
  done : List β := []
  deriving Repr, DecidableEq

def Carrier.map (f : β → γ) (c : Carrier β) : Carrier γ := ⟨c.pieces.map f, c.first, c.last⟩

def Assembly.map (f : β → γ) (a : Assembly β) : Assembly γ := ⟨a.opened.map f, a.done.map f⟩

def Assembly.filter (good : β → Bool) (a : Assembly β) : Assembly β :=
  ⟨a.opened.filter good, a.done.filter good⟩

/-! ## Receiving -/

section
variable (join : β → β → β)

/-- The messages that the pieces are from, as far as they are known: none stands for a message
whose beginning is missing. -/
def joined (opened : Option β) (c : Carrier β) : List (Option β) :=
  if c.first then c.pieces.map some
  else match c.pieces with
    | [] => []
    | piece :: rest => opened.map (join · piece) :: rest.map some

/-- The messages that end in the carrier. -/
def closed (opened : Option β) (c : Carrier β) : List (Option β) :=
  if c.last then joined join opened c else (joined join opened c).dropLast

/-- The message that goes on after the carrier. -/
def remainder (opened : Option β) (c : Carrier β) : Option β :=
  if c.last then none else (joined join opened c).getLast?.join

/-- A carrier, or the news that one is lost. -/
def hear (a : Assembly β) : Option (Carrier β) → Assembly β
  | none => { a with opened := none }
  | some c => ⟨remainder join a.opened c, a.done ++ (closed join a.opened c).reduceOption⟩

end

/-! ## What a carrier makes -/

section
variable {join : β → β → β} {a : Assembly β} {pieces rest : List β} {piece next : β}

theorem reduceOption_map_some (pieces : List β) : (pieces.map some).reduceOption = pieces := by
  simp [List.reduceOption]

theorem join_map_some (message : Option β) : (message.map some).join = message := by
  cases message <;> rfl

theorem hear_whole : hear join a (some ⟨pieces, true, true⟩) = ⟨none, a.done ++ pieces⟩ := by
  simp [hear, closed, remainder, joined, reduceOption_map_some]

theorem hear_open :
    hear join a (some ⟨pieces, true, false⟩) = ⟨pieces.getLast?, a.done ++ pieces.dropLast⟩ := by
  simp [hear, closed, remainder, joined, join_map_some, ← List.map_dropLast,
    reduceOption_map_some]

theorem hear_end : hear join a (some ⟨piece :: rest, false, true⟩) =
    ⟨none, a.done ++ (a.opened.map (join · piece)).toList ++ rest⟩ := by
  cases hopened : a.opened <;>
    simp [hear, closed, remainder, joined, hopened, reduceOption_map_some]

theorem hear_middle_one : hear join a (some ⟨[piece], false, false⟩) =
    ⟨a.opened.map (join · piece), a.done⟩ := by
  simp [hear, closed, remainder, joined]

theorem hear_middle : hear join a (some ⟨piece :: next :: rest, false, false⟩) =
    ⟨(next :: rest).getLast?,
      a.done ++ (a.opened.map (join · piece)).toList ++ (next :: rest).dropLast⟩ := by
  have hdrop : ((next :: rest).map some).dropLast.reduceOption = (next :: rest).dropLast := by
    rw [← List.map_dropLast, reduceOption_map_some]
  have hlast : ((next :: rest).map some).getLast?.join = (next :: rest).getLast? := by
    rw [List.getLast?_map, join_map_some]
  cases hopened : a.opened <;> simp_all [hear, closed, remainder, joined]

end

/-! ## Losses -/

section
variable {join : β → β → β} {good : β → Bool}

theorem reduceOption_map_filter (messages : List (Option β)) :
    (messages.map (Option.filter good)).reduceOption = messages.reduceOption.filter good := by
  induction messages with
  | nil => rfl
  | cons message rest ih =>
      cases message with
      | none => simpa using ih
      | some b => by_cases hb : good b <;> simp [Option.filter_some, hb, ih]

theorem getLast?_map_filter (messages : List (Option β)) :
    (messages.map (Option.filter good)).getLast?.join = messages.getLast?.join.filter good := by
  rw [List.getLast?_map]
  cases messages.getLast? with
  | none => rfl
  | some message => rfl

/-- If all pieces of a carrier are good, what is good before it decides what is good after it. -/
theorem joined_filter (hjoin : ∀ a b, good (join a b) = (good a && good b)) (opened : Option β)
    {c : Carrier β} (hgood : ∀ piece ∈ c.pieces, good piece = true) :
    joined join (opened.filter good) c = (joined join opened c).map (Option.filter good) := by
  have hwhole : ∀ pieces : List β, (∀ piece ∈ pieces, good piece = true) →
      (pieces.map some).map (Option.filter good) = pieces.map some := by
    intro pieces hpieces
    rw [List.map_map]
    refine List.map_congr_left fun piece hpiece => ?_
    simp [Option.filter_some, hpieces piece hpiece]
  unfold joined
  split
  · exact (hwhole _ hgood).symm
  · split
    · rfl
    · rename_i piece rest hpieces
      rw [hpieces] at hgood
      rw [List.map_cons, hwhole rest fun p hp => hgood p (List.mem_cons_of_mem _ hp)]
      congr 1
      cases opened with
      | none => rfl
      | some b =>
          have hpiece := hgood piece List.mem_cons_self
          by_cases hb : good b <;> simp [Option.filter_some, hjoin, hpiece, hb]

/-- If no piece of a carrier is good, nothing that it makes is. -/
theorem joined_filter_of_bad (hjoin : ∀ a b, good (join a b) = (good a && good b))
    (opened : Option β) {c : Carrier β} (hbad : ∀ piece ∈ c.pieces, good piece = false)
    {message : Option β} (hmessage : message ∈ joined join opened c) :
    message.filter good = none := by
  have hwhole : ∀ {pieces : List β}, (∀ piece ∈ pieces, good piece = false) →
      message ∈ pieces.map some → message.filter good = none := by
    intro pieces hpieces hmem
    obtain ⟨piece, hpiece, rfl⟩ := List.mem_map.1 hmem
    simp [Option.filter_some, hpieces piece hpiece]
  unfold joined at hmessage
  split at hmessage
  · exact hwhole hbad hmessage
  · split at hmessage
    · cases hmessage
    · rename_i piece rest hpieces
      rw [hpieces] at hbad
      rcases List.mem_cons.1 hmessage with rfl | hrest
      · cases opened with
        | none => rfl
        | some b => simp [Option.filter_some, hjoin, hbad piece List.mem_cons_self]
      · exact hwhole (fun p hp => hbad p (List.mem_cons_of_mem _ hp)) hrest

theorem hear_filter (hjoin : ∀ a b, good (join a b) = (good a && good b)) (a : Assembly β)
    {c : Carrier β} (hgood : ∀ piece ∈ c.pieces, good piece = true) :
    hear join (a.filter good) (some c) = (hear join a (some c)).filter good := by
  have hjoined := joined_filter hjoin a.opened hgood
  unfold hear remainder closed Assembly.filter
  dsimp only
  rw [hjoined]
  cases c.last with
  | true => simp only [if_pos, Option.filter_none, List.filter_append, reduceOption_map_filter]
  | false =>
      simp only [Bool.false_eq_true, if_false, ← List.map_dropLast, List.filter_append,
        reduceOption_map_filter, getLast?_map_filter]

theorem hear_filter_of_bad (hjoin : ∀ a b, good (join a b) = (good a && good b))
    (a : Assembly β) {c : Carrier β} (hbad : ∀ piece ∈ c.pieces, good piece = false) :
    hear join (a.filter good) none = (hear join a (some c)).filter good := by
  have hall := fun message => @joined_filter_of_bad _ _ _ hjoin a.opened _ hbad message
  have hnone : ∀ messages : List (Option β), (∀ message ∈ messages, message ∈
      joined join a.opened c) → messages.reduceOption.filter good = [] := by
    intro messages hsub
    rw [List.filter_eq_nil_iff]
    intro b hb
    have := hall (some b) (hsub _ (List.reduceOption_mem_iff.1 hb))
    simpa [Option.filter_some] using this
  have hopened : (remainder join a.opened c).filter good = none := by
    unfold remainder
    split
    · rfl
    · cases hlast : (joined join a.opened c).getLast? with
      | none => rfl
      | some message => exact hall message (List.mem_of_getLast? hlast)
  have hclosed : (closed join a.opened c).reduceOption.filter good = [] := by
    refine hnone _ fun message hmessage => ?_
    unfold closed at hmessage
    split at hmessage
    · exact hmessage
    · exact List.dropLast_subset _ hmessage
  unfold hear Assembly.filter
  rw [hopened, List.filter_append, hclosed, List.append_nil]

end
/-! ## Cutting -/

section
variable (join : β → β → β)

/-- The pieces of two carriers as those of one: unless the first one ends a message, its last piece
and the first one of the second are parts of the same piece. -/
def gluePieces : Bool → List β → List β → List β
  | true, pieces, more => pieces ++ more
  | false, [], more => more
  | false, [piece], [] => [piece]
  | false, [piece], next :: more => join piece next :: more
  | false, piece :: other :: pieces, more => piece :: gluePieces false (other :: pieces) more

def Carrier.glue (c d : Carrier β) : Carrier β :=
  ⟨gluePieces join c.last c.pieces d.pieces, c.first, d.last⟩

end

section
variable {join : β → β → β} {c d : Carrier β}

theorem gluePieces_nil (last : Bool) (pieces : List β) :
    gluePieces join last pieces [] = pieces := by
  cases last with
  | true => rw [gluePieces, List.append_nil]
  | false =>
      induction pieces with
      | nil => rfl
      | cons piece rest ih =>
          cases rest with
          | nil => rfl
          | cons other rest => exact congrArg (piece :: ·) ih

theorem gluePieces_concat (pieces : List β) (piece next : β) (more : List β) :
    gluePieces join false (pieces ++ [piece]) (next :: more) =
      pieces ++ join piece next :: more := by
  induction pieces with
  | nil => rfl
  | cons other rest ih =>
      cases rest with
      | nil => rfl
      | cons another rest => exact congrArg (other :: ·) ih

theorem flatten_gluePieces (last : Bool) (pieces more : List (List α)) :
    (gluePieces (· ++ ·) last pieces more).flatten = pieces.flatten ++ more.flatten := by
  cases last with
  | true => rw [gluePieces, List.flatten_append]
  | false =>
      rcases List.eq_nil_or_concat' pieces with rfl | ⟨front, piece, rfl⟩
      · rfl
      · cases more with
        | nil => rw [gluePieces_nil, List.flatten_nil, List.append_nil]
        | cons next more => simp [gluePieces_concat]

theorem joined_ne_nil (opened : Option β) (hc : c.pieces ≠ []) : joined join opened c ≠ [] := by
  unfold joined
  split
  · simpa using hc
  · split
    · contradiction
    · exact List.cons_ne_nil _ _

/-- What a carrier makes is, up to the message that goes on, what its two parts make. -/
theorem joined_glue (hassoc : ∀ a b c, join (join a b) c = join a (join b c)) (opened : Option β)
    (hc : c.pieces ≠ []) (hd : d.pieces ≠ []) (hcut : d.first = c.last) :
    joined join opened (c.glue join d) =
      closed join opened c ++ joined join (remainder join opened c) d := by
  obtain ⟨pieces, first, last⟩ := c
  obtain ⟨more, first', last'⟩ := d
  obtain rfl : first' = last := hcut
  cases first' with
  | true =>
      unfold Carrier.glue closed joined
      cases first with
      | true => simp [gluePieces]
      | false =>
          cases pieces with
          | nil => exact (hc rfl).elim
          | cons piece rest => simp [gluePieces]
  | false =>
      cases more with
      | nil => exact (hd rfl).elim
      | cons next more =>
          obtain ⟨front, piece, rfl⟩ := (List.eq_nil_or_concat' pieces).resolve_left hc
          unfold Carrier.glue closed remainder joined
          rw [gluePieces_concat]
          cases first with
          | true => simp
          | false =>
              cases front with
              | nil => cases opened <;> simp [hassoc]
              | cons other front =>
                  simp only [List.cons_append, Bool.false_eq_true, if_false, List.map_append,
                    List.map_cons, List.map_nil]
                  rw [← @List.cons_append _ _ (front.map some) [some piece],
                    List.dropLast_concat, List.getLast?_concat]
                  rfl

/-- Two carriers of which the second goes on where the first one ends are heard as one. -/
theorem hear_glue (hassoc : ∀ a b c, join (join a b) c = join a (join b c)) (a : Assembly β)
    (hc : c.pieces ≠ []) (hd : d.pieces ≠ []) (hcut : d.first = c.last) :
    hear join (hear join a (some c)) (some d) = hear join a (some (c.glue join d)) := by
  have hjoined := joined_glue hassoc a.opened hc hd hcut
  have hne : joined join (remainder join a.opened c) d ≠ [] := joined_ne_nil _ hd
  have hlast : (c.glue join d).last = d.last := rfl
  have hremainder : remainder join a.opened (c.glue join d) =
      remainder join (remainder join a.opened c) d := by
    rw [remainder, remainder, hjoined, hlast, List.getLast?_append_of_ne_nil _ hne]
  have hclosed : closed join a.opened (c.glue join d) =
      closed join a.opened c ++ closed join (remainder join a.opened c) d := by
    rw [closed, closed.eq_def _ (remainder join a.opened c), hjoined, hlast]
    split
    · rfl
    · exact List.dropLast_append_of_ne_nil hne
  unfold hear
  dsimp only
  rw [hremainder, hclosed, List.reduceOption_append, List.append_assoc]

end

/-! ## Messages and the carriers that they come in -/

section
variable {arrived arrived' : ℕ → Bool} {cs : List (Carrier (List α))} {c : Carrier (List α)}

/-- Two parts of a message, each with the numbers of the carriers that it comes in. -/
def joinNumbered (x y : List α × List ℕ) : List α × List ℕ := (x.1 ++ y.1, x.2 ++ y.2)

def Carrier.number (n : ℕ) (c : Carrier (List α)) : Carrier (List α × List ℕ) :=
  c.map fun piece => (piece, [n])

/-- What the carriers make if none is lost. -/
def numbered (cs : List (Carrier (List α))) : Assembly (List α × List ℕ) :=
  run (hear joinNumbered) {} (cs.mapIdx fun n c => some (c.number n))

/-- The messages that end in one of the carriers, each with the numbers of the carriers that have
a piece of it. -/
def messages (cs : List (Carrier (List α))) : List (List α × List ℕ) := (numbered cs).done

/-- What is made of the carriers that arrive. -/
def heard (arrived : ℕ → Bool) (cs : List (Carrier (List α))) : Assembly (List α) :=
  run (hear (· ++ ·)) {} (cs.mapIdx fun n c => if arrived n then some c else none)

theorem numbered_concat (cs : List (Carrier (List α))) (c : Carrier (List α)) :
    numbered (cs ++ [c]) = hear joinNumbered (numbered cs) (some (c.number cs.length)) := by
  unfold numbered
  rw [List.mapIdx_concat, run_append]
  rfl

theorem heard_concat (arrived : ℕ → Bool) (cs : List (Carrier (List α)))
    (c : Carrier (List α)) :
    heard arrived (cs ++ [c]) =
      hear (· ++ ·) (heard arrived cs) (if arrived cs.length then some c else none) := by
  unfold heard
  rw [List.mapIdx_concat, run_append]
  rfl

theorem joined_map (f : β → γ) {join : β → β → β} {join' : γ → γ → γ}
    (hf : ∀ a b, f (join a b) = join' (f a) (f b)) (opened : Option β) (c : Carrier β) :
    joined join' (opened.map f) (c.map f) = (joined join opened c).map (Option.map f) := by
  obtain ⟨pieces, first, last⟩ := c
  unfold joined Carrier.map
  cases first with
  | true => simp [Function.comp_def]
  | false =>
      cases pieces with
      | nil => rfl
      | cons piece rest => cases opened <;> simp [hf, Function.comp_def]

theorem hear_map (f : β → γ) {join : β → β → β} {join' : γ → γ → γ}
    (hf : ∀ a b, f (join a b) = join' (f a) (f b)) (a : Assembly β) (c : Carrier β) :
    hear join' (a.map f) (some (c.map f)) = (hear join a (some c)).map f := by
  have hjoined := joined_map f hf a.opened c
  have hlast : (c.map f).last = c.last := rfl
  have hremainder : remainder join' (a.opened.map f) (c.map f) =
      (remainder join a.opened c).map f := by
    rw [remainder, remainder, hjoined, hlast]
    split
    · rfl
    · rw [List.getLast?_map]
      cases (joined join a.opened c).getLast? with
      | none => rfl
      | some message => rfl
  have hclosed : closed join' (a.opened.map f) (c.map f) =
      (closed join a.opened c).map (Option.map f) := by
    rw [closed, closed, hjoined, hlast]
    split
    · rfl
    · exact List.map_dropLast.symm
  unfold hear Assembly.map
  dsimp only
  rw [hremainder, hclosed, List.reduceOption_map, List.map_append]

/-- The messages made are those of which every piece arrives. -/
theorem heard_eq (arrived : ℕ → Bool) (cs : List (Carrier (List α))) :
    heard arrived cs =
      ((numbered cs).filter fun message => message.2.all arrived).map Prod.fst := by
  induction cs using List.reverseRecOn with
  | nil => rfl
  | append_singleton cs c ih =>
      have hjoin : ∀ x y : List α × List ℕ, (joinNumbered x y).2.all arrived =
          (x.2.all arrived && y.2.all arrived) := fun x y => List.all_append
      have hpiece : ∀ piece ∈ (c.number cs.length).pieces,
          piece.2.all arrived = arrived cs.length := by
        intro piece hpiece
        obtain ⟨data, -, rfl⟩ := List.mem_map.1 hpiece
        simp
      have hdata : (c.number cs.length).map Prod.fst = c := by
        unfold Carrier.number Carrier.map
        simp [Function.comp_def]
      rw [heard_concat, numbered_concat, ih]
      cases hn : arrived cs.length with
      | true =>
          rw [← hear_filter hjoin _ fun piece hp => (hpiece piece hp).trans hn]
          conv_lhs => rw [if_pos rfl, ← hdata]
          exact hear_map Prod.fst (fun _ _ => rfl) _ _
      | false =>
          rw [← hear_filter_of_bad hjoin _ fun piece hp => (hpiece piece hp).trans hn]
          rfl

theorem heard_done (arrived : ℕ → Bool) (cs : List (Carrier (List α))) :
    (heard arrived cs).done =
      ((messages cs).filter fun message => message.2.all arrived).map Prod.fst := by
  rw [heard_eq]
  rfl

theorem heard_all_done (cs : List (Carrier (List α))) :
    (heard (fun _ => true) cs).done = (messages cs).map Prod.fst := by
  rw [heard_done]
  congr 1
  exact List.filter_eq_self.2 fun message _ => by simp

theorem heard_congr (hcongr : ∀ n < cs.length, arrived n = arrived' n) :
    heard arrived cs = heard arrived' cs := by
  unfold heard
  congr 1
  refine List.mapIdx_eq_mapIdx_iff.2 fun n hn => ?_
  rw [hcongr n hn]

/-- More carriers only add to the messages that are made. -/
theorem heard_done_prefix (arrived : ℕ → Bool) (cs more : List (Carrier (List α))) :
    (heard arrived cs).done <+: (heard arrived (cs ++ more)).done := by
  induction more using List.reverseRecOn with
  | nil => simp
  | append_singleton more c ih =>
      rw [← List.append_assoc, heard_concat]
      refine ih.trans ?_
      split
      · exact List.prefix_append _ _
      · exact List.prefix_rfl

/-- Carriers that are all lost only end the hope for the message that has begun. -/
theorem heard_append_of_lost {more : List (Carrier (List α))} (hmore : more ≠ [])
    (hlost : ∀ n, cs.length ≤ n → n < (cs ++ more).length → arrived n = false) :
    heard arrived (cs ++ more) = hear (· ++ ·) (heard arrived cs) none := by
  induction more using List.reverseRecOn with
  | nil => exact (hmore rfl).elim
  | append_singleton more c ih =>
      have hlength : (cs ++ more).length < (cs ++ (more ++ [c])).length := by simp
      rw [← List.append_assoc, heard_concat, hlost _ (by simp) hlength]
      by_cases hempty : more = []
      · rw [hempty, List.append_nil]
        rfl
      · rw [ih hempty fun n hle hlt => hlost n hle (Nat.lt_trans hlt hlength)]
        rfl

end

/-! ## Losses that are seen from the numbers -/

section
variable {cs : List (Carrier (List α))} {items : List (ℕ × Carrier (List α))}

/-- A receiver that knows which number comes next. -/
structure Listener (α : Type*) where
  expected : ℕ := 0
  assembly : Assembly (List α) := {}
  deriving Repr, DecidableEq

/-- Another number than the expected one tells of a loss. -/
def accept (s : Listener α) (item : ℕ × Carrier (List α)) : Listener α where
  expected := item.1 + 1
  assembly := hear (· ++ ·)
    (if item.1 = s.expected then s.assembly else hear (· ++ ·) s.assembly none) (some item.2)

/-- The carriers before the expected one, of which some were accepted. -/
structure Accepted (cs : List (Carrier (List α))) (numbers : List ℕ) (s : Listener α) : Prop where
  expected_le : s.expected ≤ cs.length
  lt_expected : ∀ n ∈ numbers, n < s.expected
  expected : s.expected = 0 ∨ s.expected - 1 ∈ numbers
  assembly : s.assembly = heard (fun n => decide (n ∈ numbers)) (cs.take s.expected)

theorem Accepted.accept {numbers : List ℕ} {s : Listener α} {n : ℕ} {c : Carrier (List α)}
    (hs : Accepted cs numbers s) (hc : cs[n]? = some c) (hn : ∀ m ∈ numbers, m < n) :
    Accepted cs (numbers ++ [n]) (accept s (n, c)) := by
  obtain ⟨hlt, hget⟩ := List.getElem?_eq_some_iff.1 hc
  have hle : s.expected ≤ n := by
    rcases hs.expected with hzero | hlast
    · omega
    · have := hn _ hlast
      omega
  have hbefore : heard (fun m => decide (m ∈ numbers ++ [n])) (cs.take n) =
      heard (fun m => decide (m ∈ numbers)) (cs.take n) := by
    refine heard_congr fun m hm => ?_
    rw [List.length_take] at hm
    simp [show m ≠ n by omega]
  have hskip : heard (fun m => decide (m ∈ numbers)) (cs.take n) =
      if n = s.expected then s.assembly else hear (· ++ ·) s.assembly none := by
    split
    · rename_i heq
      rw [heq, hs.assembly]
    · rename_i hne
      have hsplit : cs.take n =
          cs.take s.expected ++ (cs.drop s.expected).take (n - s.expected) := by
        rw [← List.take_add]
        congr 1
        omega
      rw [hsplit, hs.assembly, heard_append_of_lost]
      · intro hempty
        have := congrArg List.length hempty
        simp only [List.length_take, List.length_drop, List.length_nil] at this
        omega
      · intro m hm _
        rw [List.length_take] at hm
        refine decide_eq_false fun hmem => ?_
        have := hs.lt_expected m hmem
        omega
  refine ⟨hlt, fun m hm => ?_, Or.inr (by simp [Segmentation.accept]), ?_⟩
  · rcases List.mem_append.1 hm with hm | hm
    · exact Nat.lt_succ_of_lt (hn m hm)
    · rw [List.mem_singleton.1 hm]
      exact Nat.lt_succ_self n
  · show hear (· ++ ·) (if n = s.expected then s.assembly else hear (· ++ ·) s.assembly none)
      (some c) = heard (fun m => decide (m ∈ numbers ++ [n])) (cs.take (n + 1))
    have hnew : decide (n ∈ numbers ++ [n]) = true := by simp
    rw [List.take_succ_eq_append_getElem hlt, heard_concat, hbefore, hskip, hget,
      List.length_take, Nat.min_eq_left (Nat.le_of_lt hlt), hnew]
    rfl

theorem accepted (hitems : ∀ item ∈ items, cs[item.1]? = some item.2)
    (hsorted : (items.map Prod.fst).Pairwise (· < ·)) :
    Accepted cs (items.map Prod.fst) (run accept {} items) := by
  induction items using List.reverseRecOn with
  | nil => exact ⟨Nat.zero_le _, nofun, Or.inl rfl, rfl⟩
  | append_singleton items item ih =>
      rw [List.map_append, List.pairwise_append] at hsorted
      rw [run_append, List.map_append]
      refine (ih (fun other hother => hitems other (List.mem_append_left _ hother))
        hsorted.1).accept (hitems item (by simp)) fun m hm => ?_
      exact hsorted.2.2 m hm item.1 (by simp)

/-- Of the carriers, those with increasing numbers were accepted. The messages made are those of
which every piece was in one of them. -/
theorem accepted_done (hitems : ∀ item ∈ items, cs[item.1]? = some item.2)
    (hsorted : (items.map Prod.fst).Pairwise (· < ·)) :
    (run accept {} items).assembly.done = ((messages cs).filter fun message =>
      message.2.all fun n => decide (n ∈ items.map Prod.fst)).map Prod.fst := by
  have hall := accepted hitems hsorted
  rw [← heard_done, hall.assembly]
  by_cases hrest : cs.drop (run accept {} items).expected = []
  · rw [List.take_of_length_le (List.drop_eq_nil_iff.1 hrest)]
  · conv_rhs => rw [← List.take_append_drop (run accept {} items).expected cs]
    rw [heard_append_of_lost hrest fun m hm _ => ?_]
    · rfl
    · rw [List.length_take, Nat.min_eq_left hall.expected_le] at hm
      refine decide_eq_false fun hmem => ?_
      have := hall.lt_expected m hmem
      omega

end

end Segmentation
