import Webthings.Apps.Upload
import Webthings.Evcoap.TypedGetters
import Webthings.Evcoap.Options.Fragments

namespace Webthings.Apps
open Webthings.Evcoap

/-- The request asks for a block of a size up to the limit of the server, by its Block2 option or by having none. -/
structure AsksBlock (order : ByteOrder) (ctx : ServerCtx) (request : Request) (n : UInt32) (bsz : Nat) : Prop where
  size : BlockSize bsz
  limit : bsz ≤ ctx.blockSize
  asked : (∃ more, ecRequestGetBlock2 order request.opts = some ⟨n, more, bsz⟩) ∨
    (ecRequestGetBlock2 order request.opts = none ∧ n = 0 ∧ bsz = ctx.blockSize)

/-- The M bit of a response, clear without a Block2 option. -/
def Response.goesOn (order : ByteOrder) (response : Response) : Bool :=
  ((ecResponseGetBlock2 order response.opts).map BlockInfo.more).getD false

/-- The bytes of a representation from one place up to another. -/
def bytesBetween (data : List UInt8) (start stop : Nat) : List UInt8 := (data.take stop).drop start

/-- The block is read inside the representation, and has its bytes and its M bit. -/
structure BlockServed (order : ByteOrder) (ctx : ServerCtx) (request : Request) (data : List UInt8) (n bsz : Nat) :
    Prop where
  inside : setPayload order ctx request data Response.new ≠ none
  slice : n * bsz < data.length → ∀ response, setPayload order ctx request data Response.new = some response →
    response.payload = bytesBetween data (n * bsz) (min ((n + 1) * bsz) data.length)
  more : n * bsz < data.length → ∀ response, setPayload order ctx request data Response.new = some response →
    (response.goesOn order = true ↔ (n + 1) * bsz < data.length)

/-- A transfer of the blocks 0, 1, 2, ... up to the first one whose M bit is clear. -/
structure Fetches (order : ByteOrder) (ctx : ServerCtx) (requests : Nat → Request) (data : List UInt8) (last : Nat) :
    Prop where
  number : last ≤ 0xfffff
  goesOn : ∀ n < last, ∃ response, setPayload order ctx (requests n) data Response.new = some response ∧
    response.goesOn order = true
  stops : ∃ response, setPayload order ctx (requests last) data Response.new = some response ∧
    response.goesOn order = false ∧ (last ≠ 0 → response.payload ≠ [])
  whole : ((List.range (last + 1)).flatMap fun n =>
    ((setPayload order ctx (requests n) data Response.new).map Response.payload).getD []) = data

section Slices

variable {order : ByteOrder} {ctx : ServerCtx} {request : Request} {n : UInt32} {bsz : Nat} {data : List UInt8}

theorem AsksBlock.bounded (asks : AsksBlock order ctx request n bsz) :
    boundedSize ctx.blockSize (((ecRequestGetBlock2 order request.opts).map BlockInfo.bsz).getD 0) = bsz ∧
      ((ecRequestGetBlock2 order request.opts).map BlockInfo.bnum).getD 0 = n := by
  have positive := asks.size.pos
  rcases asks.asked with ⟨more, asked⟩ | ⟨absent, first, whole⟩
  · rw [asked]
    refine ⟨?_, rfl⟩
    change boundedSize ctx.blockSize bsz = bsz
    unfold boundedSize
    rw [if_neg (Nat.ne_of_gt positive), Nat.min_eq_right asks.limit]
  · rw [absent]
    refine ⟨?_, first.symm⟩
    change boundedSize ctx.blockSize 0 = bsz
    unfold boundedSize
    rw [if_pos rfl, whole]

theorem AsksBlock.number (asks : AsksBlock order ctx request n bsz) : n ≤ 0xfffff := by
  rcases asks.asked with ⟨more, asked⟩ | ⟨_, rfl, _⟩
  · exact ecRequestGetBlock_number (.inr rfl) asked
  · decide

/-- The representation fits into one block. -/
theorem setPayload_single (asks : AsksBlock order ctx request n bsz) (few : data.length ≤ bsz) :
    ∃ response, setPayload order ctx request data Response.new = some response ∧ response.payload = data ∧
      response.goesOn order = false := by
  obtain ⟨size, number⟩ := asks.bounded
  unfold setPayload
  dsimp only
  rw [size, number, if_pos few]
  refine ⟨_, rfl, ?_, ?_⟩
  · split
    · rename_i empty
      exact empty.symm
    · rfl
  · split <;> rfl

/-- The block is behind the representation. -/
theorem setPayload_behind (asks : AsksBlock order ctx request n bsz) (many : bsz < data.length)
    (behind : data.length < n.toNat * bsz) : setPayload order ctx request data Response.new = none := by
  obtain ⟨size, number⟩ := asks.bounded
  unfold setPayload
  dsimp only
  rw [size, number, if_neg (Nat.not_le.mpr many), if_pos behind]

/-- The block begins in the representation or at its end. -/
theorem setPayload_block2 (asks : AsksBlock order ctx request n bsz) (many : bsz < data.length)
    (inside : n.toNat * bsz ≤ data.length) :
    ∃ response, setPayload order ctx request data Response.new = some response ∧
      response.payload = (data.drop (n.toNat * bsz)).take bsz ∧
      response.goesOn order = decide (n.toNat < data.length / bsz) := by
  obtain ⟨size, number⟩ := asks.bounded
  have room : Response.new.opts.noptions < ecProtoMaxOptions := by decide
  have absent := response_new_absent .block2
  have positive := asks.size.pos
  have added := (addBlock_ok_iff order n (decide (n.toNat < data.length / bsz)) asks.size (.inr rfl) absent).mpr
    ⟨asks.number, room⟩
  have read := (addBlock_reads order n (decide (n.toNat < data.length / bsz)) asks.size (.inr rfl) absent asks.number
    room).2
  have part : (data.drop (n.toNat * bsz)).take
      (if decide (n.toNat < data.length / bsz) then bsz else data.length - n.toNat * bsz) =
        (data.drop (n.toNat * bsz)).take bsz := by
    by_cases more : n.toNat < data.length / bsz
    · rw [if_pos (decide_eq_true more)]
    · have rest : data.length < (n.toNat + 1) * bsz := by
        have next := Nat.lt_succ_of_le (Nat.not_lt.mp more)
        exact (Nat.div_lt_iff_lt_mul positive).mp next
      rw [Nat.succ_mul] at rest
      rw [if_neg (by simpa using more), List.take_of_length_le (by rw [List.length_drop]),
        List.take_of_length_le (by rw [List.length_drop]; omega)]
  unfold setPayload
  dsimp only
  rw [size, number, if_neg (Nat.not_le.mpr many), if_neg (Nat.not_lt.mpr inside),
    if_neg (show ¬ (Response.new.adding fun opts => addBlock order opts .block2 n
      (decide (n.toNat < data.length / bsz)) bsz).2 ≠ 0 from not_not_intro added), part]
  have flag : ∀ payload, Response.goesOn order {(Response.new.adding fun opts => addBlock order opts .block2 n
      (decide (n.toNat < data.length / bsz)) bsz).1 with payload := payload} =
        decide (n.toNat < data.length / bsz) := by
    intro payload
    unfold Response.goesOn
    change ((ecRequestGetBlock order (addBlock order Response.new.opts .block2 n
      (decide (n.toNat < data.length / bsz)) bsz).1 .block2).map BlockInfo.more).getD false = _
    rw [read]
    rfl
  by_cases empty : (data.drop (n.toNat * bsz)).take bsz = []
  · rw [if_pos empty]
    exact ⟨_, rfl, empty.symm, flag []⟩
  · rw [if_neg empty]
    exact ⟨_, rfl, rfl, flag _⟩

/-- A block of a larger representation is served right when it does not end with the representation, and does not begin
behind it. -/
theorem blockServed_iff (asks : AsksBlock order ctx request n bsz) :
    BlockServed order ctx request data n.toNat bsz ↔
      data.length ≤ bsz ∨ (n.toNat * bsz ≤ data.length ∧ (n.toNat + 1) * bsz ≠ data.length) := by
  have positive := asks.size.pos
  by_cases few : data.length ≤ bsz
  · obtain ⟨response, handled, payload, flag⟩ := setPayload_single asks few
    refine ⟨fun _ => .inl few, fun _ => ?_⟩
    have first : n.toNat * bsz < data.length → n.toNat = 0 := by
      intro within
      by_contra later
      have block : 1 * bsz ≤ n.toNat * bsz := Nat.mul_le_mul_right bsz (Nat.one_le_iff_ne_zero.mpr later)
      omega
    refine ⟨by rw [handled]; exact Option.some_ne_none _, fun within other there => ?_, fun within other there => ?_⟩
    · rw [handled] at there
      cases there
      unfold bytesBetween
      rw [first within, Nat.zero_mul, List.drop_zero, payload, List.take_of_length_le (by omega)]
    · rw [handled] at there
      cases there
      rw [flag, first within]
      exact ⟨fun impossible => (by cases impossible), fun less => by omega⟩
  · have many : bsz < data.length := Nat.not_le.mp few
    by_cases inside : n.toNat * bsz ≤ data.length
    · obtain ⟨response, handled, payload, flag⟩ := setPayload_block2 asks many inside
      have succ : (n.toNat + 1) * bsz = n.toNat * bsz + bsz := Nat.succ_mul _ _
      have goes : n.toNat < data.length / bsz ↔ (n.toNat + 1) * bsz ≤ data.length := Nat.le_div_iff_mul_le positive
      constructor
      · intro served
        refine .inr ⟨inside, fun exact => ?_⟩
        have set := (served.more (by omega) response handled).mp (by rw [flag]; exact decide_eq_true (goes.mpr exact.le))
        omega
      · rintro (whole | ⟨_, other⟩)
        · exact absurd whole few
        · refine ⟨by rw [handled]; exact Option.some_ne_none _, fun within answer there => ?_, fun within answer there => ?_⟩
          · rw [handled] at there
            cases there
            unfold bytesBetween
            rw [List.drop_take, payload, List.take_eq_take_iff, List.length_drop]
            omega
          · rw [handled] at there
            cases there
            rw [flag, decide_eq_true_iff, goes]
            omega
    · have behind := setPayload_behind asks many (Nat.not_le.mp inside)
      constructor
      · exact fun served => absurd behind served.inside
      · rintro (whole | ⟨within, _⟩)
        · exact absurd whole few
        · exact absurd within inside

section Transfer

variable {requests : Nat → Request} (asks : ∀ n ≤ 0xfffff, AsksBlock order ctx (requests n) n.toUInt32 bsz)

include asks

/-- The blocks of a larger representation up to its last full one are handed out, and each but the last goes on. -/
theorem setPayload_requested (many : bsz < data.length) {k : Nat} (small : k ≤ 0xfffff) (reached : k ≤ data.length / bsz) :
    ∃ response, setPayload order ctx (requests k) data Response.new = some response ∧
      response.payload = (data.drop (k * bsz)).take bsz ∧ response.goesOn order = decide (k < data.length / bsz) := by
  have back : k.toUInt32.toNat = k := Nat.mod_eq_of_lt (by omega)
  have within : k.toUInt32.toNat * bsz ≤ data.length := by
    rw [back]
    exact (Nat.le_div_iff_mul_le (asks 0 (by omega)).size.pos).mp reached
  have served := setPayload_block2 (asks k small) many within
  rw [back] at served
  exact served

/-- A transfer stops at the last full block. -/
theorem Fetches.last_eq (many : bsz < data.length) {last : Nat} (fetches : Fetches order ctx requests data last) :
    last = data.length / bsz := by
  have bound := fetches.number
  apply Nat.le_antisymm
  · by_contra beyond
    obtain ⟨response, handled, _, flag⟩ := setPayload_requested asks many (k := data.length / bsz) (by omega) (Nat.le_refl _)
    obtain ⟨response', handled', clear⟩ := fetches.goesOn (data.length / bsz) (Nat.not_le.mp beyond)
    rw [handled] at handled'
    cases handled'
    rw [flag, decide_eq_true_iff] at clear
    omega
  · by_contra before
    obtain ⟨response, handled, _, flag⟩ := setPayload_requested asks many bound (by omega)
    obtain ⟨response', handled', clear, _⟩ := fetches.stops
    rw [handled] at handled'
    cases handled'
    rw [flag, decide_eq_false_iff_not] at clear
    omega

/-- The payloads up to the last full block and what is behind it are the representation. -/
theorem payloads_joined (many : bsz < data.length) (bound : data.length / bsz ≤ 0xfffff) :
    ((List.range (data.length / bsz + 1)).flatMap fun k =>
      ((setPayload order ctx (requests k) data Response.new).map Response.payload).getD []) = data := by
  have positive := (asks 0 (by omega)).size.pos
  have pieces : ((List.range (data.length / bsz + 1)).flatMap fun k =>
      ((setPayload order ctx (requests k) data Response.new).map Response.payload).getD []) =
        ((List.range (data.length / bsz + 1)).map fun k => (data.drop (k * bsz)).take bsz).flatten := by
    rw [List.flatMap_def]
    congr 1
    apply List.map_congr_left
    intro k member
    have small := Nat.le_of_lt_succ (List.mem_range.mp member)
    obtain ⟨response, handled, payload, _⟩ := setPayload_requested asks many (k := k) (by omega) small
    rw [handled]
    exact payload
  have whole : data.length ≤ (data.length / bsz + 1) * bsz := by
    have next := Nat.lt_div_mul_add positive (a := data.length)
    rw [Nat.succ_mul]
    omega
  rw [pieces, fullSegments_flatten, List.take_of_length_le whole]

/-- A transfer gets the whole representation when it is one block, or the last block is not empty and has a number. -/
theorem fetches_iff :
    (∃ last, Fetches order ctx requests data last) ↔
      data.length ≤ bsz ∨ (¬ bsz ∣ data.length ∧ data.length < 2 ^ 20 * bsz) := by
  have positive := (asks 0 (by omega)).size.pos
  by_cases few : data.length ≤ bsz
  · obtain ⟨response, handled, payload, flag⟩ := setPayload_single (asks 0 (by omega)) few
    refine ⟨fun _ => .inl few, fun _ => ⟨0, by omega, fun n less => absurd less (Nat.not_lt_zero n),
      ⟨response, handled, flag, fun later => absurd rfl later⟩, ?_⟩⟩
    rw [List.range_one, List.flatMap_singleton, handled]
    exact payload
  have many : bsz < data.length := Nat.not_le.mp few
  have some : data.length / bsz ≠ 0 := Nat.ne_of_gt (Nat.div_pos many.le positive)
  constructor
  · rintro ⟨last, fetches⟩
    have bound := fetches.number
    obtain rfl := fetches.last_eq asks many
    refine .inr ⟨fun whole => ?_, ?_⟩
    · obtain ⟨response, handled, payload, _⟩ := setPayload_requested asks many bound (Nat.le_refl _)
      obtain ⟨response', handled', _, filled⟩ := fetches.stops
      rw [handled] at handled'
      cases handled'
      apply filled some
      rw [payload, Nat.div_mul_cancel whole, List.drop_length, List.take_nil]
    · exact (Nat.div_lt_iff_lt_mul positive).mp (Nat.lt_succ_of_le bound)
  · rintro (whole | ⟨rest, bounded⟩)
    · exact absurd whole few
    · have bound : data.length / bsz ≤ 0xfffff :=
        Nat.le_of_lt_succ ((Nat.div_lt_iff_lt_mul positive).mpr bounded)
      have left : data.length / bsz * bsz < data.length :=
        Nat.lt_of_le_of_ne (Nat.div_mul_le_self _ _) fun same => rest ⟨_, by rw [Nat.mul_comm]; exact same.symm⟩
      refine ⟨data.length / bsz, bound, fun n less => ?_, ?_, payloads_joined asks many bound⟩
      · obtain ⟨response, handled, _, flag⟩ := setPayload_requested asks many (k := n) (by omega) less.le
        exact ⟨response, handled, by rw [flag]; exact decide_eq_true less⟩
      · obtain ⟨response, handled, payload, flag⟩ := setPayload_requested asks many bound (Nat.le_refl _)
        refine ⟨response, handled, by rw [flag]; exact decide_eq_false (Nat.lt_irrefl _), fun _ empty => ?_⟩
        rw [payload] at empty
        have none := congrArg List.length empty
        rw [List.length_take, List.length_drop, List.length_nil] at none
        omega

end Transfer

end Slices

/-- Single blocks and whole transfers of the blocks of one size are served right under these conditions exactly. -/
theorem blockSlicing_iff (order : ByteOrder) (ctx : ServerCtx) (data : List UInt8) (bsz : Nat) :
    (∀ request n, AsksBlock order ctx request n bsz →
      (BlockServed order ctx request data n.toNat bsz ↔
        data.length ≤ bsz ∨ (n.toNat * bsz ≤ data.length ∧ (n.toNat + 1) * bsz ≠ data.length))) ∧
      ∀ requests : Nat → Request, (∀ n ≤ 0xfffff, AsksBlock order ctx (requests n) n.toUInt32 bsz) →
        ((∃ last, Fetches order ctx requests data last) ↔
          data.length ≤ bsz ∨ (¬ bsz ∣ data.length ∧ data.length < 2 ^ 20 * bsz)) :=
  ⟨fun _ _ asks => blockServed_iff asks, fun _ asks => fetches_iff asks⟩

/-- A GET for a block of 16 bytes. -/
def blockGet (n : Nat) : Request :=
  {textTarget with method := .get, opts := (addBlock .little ecOptsInit .block2 n.toUInt32 false 16).1}

theorem blockGet_asks (n : Nat) (small : n ≤ 0xfffff) : AsksBlock .little textServer (blockGet n) n.toUInt32 16 := by
  have size : BlockSize 16 := ⟨0, by omega, rfl⟩
  have number : n.toUInt32 ≤ 0xfffff := by
    rw [UInt32.le_iff_toNat_le]
    change n % 2 ^ 32 ≤ 0xfffff
    omega
  exact ⟨size, by decide, .inl ⟨false, (addBlock_reads .little n.toUInt32 false size (.inr rfl) rfl number (by decide)).2⟩⟩

/-- A representation of 17 bytes is fetched in two blocks. -/
theorem seventeenBytes_fetched : (∃ last, Fetches .little textServer blockGet (List.replicate 17 1) last) ∧
    BlockServed .little textServer (blockGet 0) (List.replicate 17 1) 0 16 :=
  ⟨((blockSlicing_iff .little textServer (List.replicate 17 1) 16).2 blockGet blockGet_asks).mpr
      (.inr ⟨by decide, by decide⟩),
    ((blockSlicing_iff .little textServer (List.replicate 17 1) 16).1 (blockGet 0) 0
      (blockGet_asks 0 (by omega))).mpr (.inr ⟨by decide, by decide⟩)⟩

/-- The last full block of 32 bytes announces another one, and block 3 is read behind them. -/
theorem thirtyTwoBytes_misserved :
    AsksBlock .little textServer (blockGet 1) 1 16 ∧ AsksBlock .little textServer (blockGet 3) 3 16 ∧
      ¬ BlockServed .little textServer (blockGet 1) (List.replicate 32 1) 1 16 ∧
      ¬ BlockServed .little textServer (blockGet 3) (List.replicate 32 1) 3 16 ∧
      ¬ ∃ last, Fetches .little textServer blockGet (List.replicate 32 1) last := by
  have second := blockGet_asks 1 (by omega)
  have fourth := blockGet_asks 3 (by omega)
  refine ⟨second, fourth, fun served => ?_, fun served => ?_, fun fetched => ?_⟩
  · rcases (blockServed_iff second).mp served with whole | ⟨_, other⟩
    · exact absurd whole (by decide)
    · exact other rfl
  · rcases (blockServed_iff fourth).mp served with whole | ⟨inside, _⟩
    · exact absurd whole (by decide)
    · exact absurd inside (by decide)
  · rcases (fetches_iff blockGet_asks).mp fetched with whole | ⟨rest, _⟩
    · exact absurd whole (by decide)
    · exact rest (by decide)

end Webthings.Apps
