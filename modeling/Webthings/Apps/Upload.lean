import Webthings.Apps.CoapClient
import Webthings.Evcoap.ClientRuns
import Webthings.Transition.DoWhile

namespace Webthings.Apps
open Webthings.Evcoap
open Webthings.Transition

/-- What a round of an upload depends on: the run of the client, the ETag that the server draws and the outcome of
writing a response payload to a file. -/
structure Round where
  run : RunEnv
  etag : EcEtag
  saved : Bool

/-- Both ends of an upload, and the representation that the server has stored in the last round. -/
structure Upload where
  client : ClientCtx
  server : ServerCtx
  stored : Option EcRep

/-- The request of the client as the server sees it. -/
def ClientCtx.delivered (ctx : ClientCtx) (target : Request) : Request :=
  {target with opts := ctx.cli.req.opts, payload := ctx.cli.req.payload}

section Rounds

variable (order : ByteOrder) (isAbsolute : List UInt8 → Bool) (target : Request) (ref : RepRef) (rounds : Nat → Round)

/-- The call that delivers the request of a round. -/
def uploadCall (client : ClientCtx) (n : Nat) : ServerCall :=
  ⟨client.delivered target, false, (rounds n).etag, none, none⟩

/-- One round: the request that the client produces is delivered to `serve_put`, and its response to the client. -/
def uploadRound (n : Nat) (u : Upload) : Except EcFault Upload :=
  match clientRun order isAbsolute (rounds n).run true u.client with
  | .error fault => .error fault
  | .ok (client, rc) =>
      if rc ≠ 0 then .ok {u with client := client, stored := none}
      else
        let served := servePut order u.server (uploadCall target rounds client n) ref Response.new
        .ok ⟨(responseCb order .reqDone served.response (rounds n).saved client).1, served.ctx, served.stored⟩

/-- The condition of the loop in `main`. -/
def uploadAgain (u : Upload) : Bool := (u.client.b1.more || u.client.b2.more) && !u.client.fail

def upload (fuel : Nat) (start : Upload) : Except EcFault (Option Upload) :=
  doWhile (uploadRound order isAbsolute target ref rounds) uploadAgain fuel 0 start

end Rounds

/-- The upload has come through: the client has not failed, and what the server has stored at last is the file. -/
def Upload.Complete (u : Upload) (ref : RepRef) (file : List UInt8) : Prop :=
  u.client.fail = false ∧ ∃ rep, u.stored = some rep ∧ rep.data = file ∧
    ∃ res, ecRepGetRes u.server.fs ref = some res ∧ rep ∈ res.reps

/-- A client that is about to put a file in blocks of a block size. -/
structure ClientCtx.Fresh (ctx : ClientCtx) : Prop where
  put : ctx.method = .put
  loads : ctx.pfn = true
  first : ctx.b1.blockNo = 0
  whole : ctx.b2.more = false
  plain : ctx.cli.observe.on = false
  size : BlockSize ctx.blockSz

/-- The block of the file with the given number. -/
def fileBlock (file : List UInt8) (bsz n : Nat) : List UInt8 := (file.drop (n * bsz)).take bsz

theorem fileBlock_append (file : List UInt8) (bsz n : Nat) :
    file.take (n * bsz) ++ fileBlock file bsz n = file.take ((n + 1) * bsz) := by
  unfold fileBlock
  rw [Nat.succ_mul, List.take_add]

theorem fileBlock_length {file : List UInt8} {bsz n : Nat} (inside : n < file.length / bsz) :
    (fileBlock file bsz n).length = bsz := by
  have fits : (n + 1) * bsz ≤ file.length := Nat.le_trans (Nat.mul_le_mul_right bsz inside) (Nat.div_mul_le_self _ _)
  rw [Nat.succ_mul] at fits
  unfold fileBlock
  rw [List.length_take, List.length_drop]
  omega

/-- The last block is what is left of the file. -/
theorem fileBlock_last {file : List UInt8} {bsz : Nat} (positive : 0 < bsz) :
    fileBlock file bsz (file.length / bsz) = file.drop (file.length / bsz * bsz) := by
  unfold fileBlock
  apply List.take_of_length_le
  have rest := Nat.mod_lt file.length positive
  have split := Nat.div_add_mod file.length bsz
  rw [Nat.mul_comm] at split
  rw [List.length_drop]
  omega

/-- There is something to send in the first round. -/
theorem fileBlock_first {file : List UInt8} {bsz n : Nat} (some : 0 < file.length) (positive : 0 < bsz) (zero : n = 0) :
    fileBlock file bsz n ≠ [] := by
  intro nothing
  have none := congrArg List.length nothing
  unfold fileBlock at none
  rw [zero, Nat.zero_mul, List.drop_zero, List.length_take, List.length_nil] at none
  omega

/-- The request carries the block of its round, or the one before when there is nothing left to send. -/
def roundPayload (file : List UInt8) (bsz n : Nat) : List UInt8 :=
  if fileBlock file bsz n = [] then fileBlock file bsz (n - 1) else fileBlock file bsz n

/-- The payload that a round puts in the request, when the file is larger than a block. -/
theorem setPayload_block (order : ByteOrder) (ctx : ClientCtx) (data : List UInt8) (size : BlockSize ctx.blockSz)
    (many : ctx.blockSz < data.length) (inside : ctx.b1.blockNo.toNat ≤ data.length / ctx.blockSz) :
    let more := decide (ctx.b1.blockNo.toNat < data.length / ctx.blockSz)
    let added := addBlock order ctx.cli.req.opts .block1 ctx.b1.blockNo more ctx.blockSz
    let p := fileBlock data ctx.blockSz ctx.b1.blockNo.toNat
    ctx.setPayload order data =
      if added.2 ≠ 0 then .ok ({ctx with cli := {ctx.cli with req := {ctx.cli.req with opts := added.1}}}, -1)
      else .ok ({ctx with
        cli := {ctx.cli with req := {ctx.cli.req with
          opts := added.1, payload := if p = [] then ctx.cli.req.payload else p}},
        b1 := {ctx.b1 with more := more}}, 0) := by
  have positive := size.pos
  have own : ctx.blockSize = ctx.blockSz := if_neg (by omega)
  have reach : ctx.b1.blockNo.toNat * ctx.blockSz ≤ data.length :=
    Nat.le_trans (Nat.mul_le_mul_right _ inside) (Nat.div_mul_le_self _ _)
  dsimp only
  unfold ClientCtx.setPayload
  dsimp only
  rw [own, if_neg (by omega), if_neg (by omega)]
  have slice : (data.drop (ctx.b1.blockNo.toNat * ctx.blockSz)).take
      (if decide (ctx.b1.blockNo.toNat < data.length / ctx.blockSz) = true then ctx.blockSz
        else data.length - ctx.b1.blockNo.toNat * ctx.blockSz) =
      fileBlock data ctx.blockSz ctx.b1.blockNo.toNat := by
    by_cases more : ctx.b1.blockNo.toNat < data.length / ctx.blockSz
    · rw [if_pos (by simp [more])]
      rfl
    · have last : ctx.b1.blockNo.toNat = data.length / ctx.blockSz := by omega
      rw [if_neg (by simp [more]), last, fileBlock_last positive]
      apply List.take_of_length_le
      rw [List.length_drop]
  rw [slice, ecRequestSetPayload_init]
  rfl

/-- The request of a round has room for its Block1 and its Content-Type option, and its number has 20 bits. -/
structure ClientFits (order : ByteOrder) (isAbsolute : List UInt8 → Bool) (start : ClientCtx) (env : RunEnv) (n : Nat) :
    Prop where
  base : (start.baseOptions order isAbsolute env).2 = 0
  room : (start.baseOptions order isAbsolute env).1.req.opts.noptions + 1 < ecProtoMaxOptions
  number : n ≤ 0xfffff

/-- The client ahead of a round, after the rounds before it. -/
structure ClientAt (start : ClientCtx) (file : List UInt8) (n : Nat) (ctx : ClientCtx) : Prop where
  config : start.SameConfig ctx
  number : ctx.b1.blockNo.toNat = n
  loaded : n = 0 ∨ ctx.data = file ∧ ctx.cli.req.payload = fileBlock file start.blockSz (n - 1)
  whole : ctx.b2.more = false
  plain : ctx.cli.observe.on = false

/-- The client with the request of a round. -/
structure Requested (order : ByteOrder) (start : ClientCtx) (file : List UInt8) (n : Nat) (ctx : ClientCtx) : Prop where
  config : start.SameConfig ctx
  going : ctx.fail = false
  number : ctx.b1.blockNo.toNat = n
  more : ctx.b1.more = decide (n < file.length / start.blockSz)
  data : ctx.data = file
  whole : ctx.b2.more = false
  plain : ctx.cli.observe.on = false
  payload : ctx.cli.req.payload = roundPayload file start.blockSz n
  block1 : ecRequestGetBlock1 order ctx.cli.req.opts =
    some ⟨ctx.b1.blockNo, decide (n < file.length / start.blockSz), start.blockSz⟩
  unconditional : ecOptsGetIfNoneMatch ctx.cli.req.opts = false

/-- The run of a client that puts a file: its options, and behind them its payload. -/
theorem clientRun_put (order : ByteOrder) (isAbsolute : List UInt8 → Bool) (env : RunEnv) (ctx : ClientCtx)
    (put : ctx.method = .put) (loads : ctx.pfn = true) :
    clientRun order isAbsolute env true ctx =
      if (ctx.baseOptions order isAbsolute env).2 ≠ 0 then
        .ok ({ctx with fail := true, cli := (ctx.baseOptions order isAbsolute env).1}, -1)
      else
        match ClientCtx.putOptions order env
            {ctx with fail := false, cli := (ctx.baseOptions order isAbsolute env).1} with
        | .error fault => .error fault
        | .ok (request, rc) => if rc ≠ 0 then .ok ({request with fail := true}, -1) else .ok (request, 0) := by
  have same : ({ctx with fail := false} : ClientCtx).baseOptions order isAbsolute env =
      ctx.baseOptions order isAbsolute env := rfl
  unfold clientRun
  dsimp only
  rw [same, put, loads, if_pos rfl]
  split
  · rfl
  · dsimp only
    generalize ClientCtx.putOptions _ _ _ = made
    cases made with
    | error fault => rfl
    | ok made => simp only [Bool.true_eq_false, or_false]

section Client

variable {order : ByteOrder} {isAbsolute : List UInt8 → Bool} {env : RunEnv} {start ctx : ClientCtx}
  {file : List UInt8} {n : Nat}

theorem blockSym_notBase : ¬ BaseSym .block1 ∧ ¬ BaseSym .contentType ∧ ¬ BaseSym .ifNoneMatch := by
  simp [BaseSym, UriSym]

variable (order isAbsolute env ctx) in
/-- What the options of the URI and the flags leave out is not in the request. -/
theorem baseOptions_absent {sym : EcOptSym} (other : ¬ BaseSym sym) :
    ecOptsGet (ctx.baseOptions order isAbsolute env).1.req.opts sym = none :=
  (baseOptions_extends order isAbsolute env ctx other).spared

/-- The data that a round sends is the file, which the first one loads. -/
theorem putOptions_loaded (based : ClientCtx) (loaded : n = 0 ∨ based.data = file) (number : based.b1.blockNo.toNat = n)
    (first : n = 0 → env.file = some file) :
    (if based.b1.blockNo = 0 then env.file.map fun file => {based with data := file} else some based) =
      some {based with data := file} := by
  by_cases zero : based.b1.blockNo = 0
  · rw [if_pos zero, first (by rw [← number, zero]; rfl)]
    rfl
  · have later : n ≠ 0 := fun none => zero (UInt32.toNat_inj.mp (number.trans none))
    rw [if_neg zero, ← loaded.resolve_left later]

/-- The run of a round whose options have been accepted so far adds Block1 and Content-Type around the payload. -/
theorem clientRun_block (fresh : start.Fresh) (many : start.blockSz < file.length)
    (inside : n ≤ file.length / start.blockSz) (ready : ClientAt start file n ctx) (first : n = 0 → env.file = some file)
    {cli : EcClient} (based : ctx.baseOptions order isAbsolute env = (cli, 0)) :
    ∃ (ct : UInt64) (fallen : ClientCtx), fallen.fail = true ∧
      let more := decide (n < file.length / start.blockSz)
      let blocked := addBlock order cli.req.opts .block1 ctx.b1.blockNo more start.blockSz
      let typed := ecOptsAddUint order blocked.1 .contentType ct
      let p := fileBlock file start.blockSz n
      clientRun order isAbsolute env true ctx =
        if blocked.2 ≠ 0 ∨ typed.2 ≠ 0 then .ok (fallen, -1)
        else .ok ({ctx with
          fail := false, data := file, b1 := {ctx.b1 with more := more},
          cli := {cli with req := {cli.req with
            opts := typed.1, payload := if p = [] then cli.req.payload else p}}}, 0) := by
  obtain ⟨config, number, loaded, whole, plain⟩ := ready
  rw [← config.blockSz] at many inside ⊢
  have size : BlockSize ctx.blockSz := by
    rw [config.blockSz]
    exact fresh.size
  have block := setPayload_block order {ctx with fail := false, cli := cli, data := file} file size many
    (by rw [← number] at inside; exact inside)
  dsimp only at block
  rw [number] at block
  rw [clientRun_put order isAbsolute env ctx (config.method.trans fresh.put) (config.pfn.trans fresh.loads), based,
    if_neg (by simp)]
  unfold ClientCtx.putOptions
  rw [putOptions_loaded {ctx with fail := false, cli := cli} (loaded.imp_right And.left) number first]
  dsimp only
  rw [block]
  generalize addBlock order cli.req.opts .block1 ctx.b1.blockNo (decide (n < file.length / ctx.blockSz)) ctx.blockSz =
    blocked
  refine ⟨(if ctx.mt = ecMtAny then ecMtTextPlain else ctx.mt).toUInt16.toUInt64, ?_⟩
  unfold ecRequestAddContentType EcClient.adding ecOptsAddContentType
  by_cases added : blocked.2 = 0
  · rw [if_neg (not_not_intro added)]
    dsimp only
    rw [if_neg (not_not_intro rfl)]
    by_cases typed : (ecOptsAddUint order blocked.1 .contentType
        (if ctx.mt = ecMtAny then ecMtTextPlain else ctx.mt).toUInt16.toUInt64).2 = 0
    · refine ⟨{ctx with fail := true}, rfl, ?_⟩
      rw [if_neg (not_or.mpr ⟨not_not_intro added, not_not_intro typed⟩)]
      dsimp only
      rw [if_neg (not_not_intro typed)]
    · refine ⟨?fallen, ?failing, Eq.trans ?run (if_pos (Or.inr typed)).symm⟩
      case run =>
          dsimp only
          rw [if_pos typed]
      case failing => rfl
  · refine ⟨?refused, ?failing, Eq.trans ?run (if_pos (Or.inl added)).symm⟩
    case run =>
        rw [if_pos added]
        dsimp only
        rw [if_pos (by decide : (-1 : Int) ≠ 0)]
        dsimp only
        rw [if_pos (by decide : (-1 : Int) ≠ 0)]
    case failing => rfl

/-- A round whose request has room produces the request with the block of its number. -/
theorem clientRun_fits (fresh : start.Fresh) (many : start.blockSz < file.length)
    (inside : n ≤ file.length / start.blockSz) (ready : ClientAt start file n ctx) (first : n = 0 → env.file = some file)
    (fits : ClientFits order isAbsolute start env n) :
    ∃ request, clientRun order isAbsolute env true ctx = .ok (request, 0) ∧
      Requested order start file n request := by
  have same := baseOptions_same order isAbsolute env ready.config
  have extended := baseOptions_extends order isAbsolute env ctx blockSym_notBase.1
  have noBlock := baseOptions_absent order isAbsolute env ctx blockSym_notBase.1
  have noType := baseOptions_absent order isAbsolute env ctx blockSym_notBase.2.1
  have noCondition := baseOptions_absent order isAbsolute env ctx
    blockSym_notBase.2.2
  have room := fits.room
  rw [← same.opts] at room
  obtain ⟨cli, based⟩ : ∃ cli, ctx.baseOptions order isAbsolute env = (cli, 0) :=
    ⟨_, Prod.ext rfl (same.rc.trans fits.base)⟩
  obtain ⟨ct, _, _, run⟩ := clientRun_block fresh many inside ready first based
  rw [based] at extended noBlock noType noCondition room
  dsimp only at noBlock noType noCondition room
  have bound : ctx.b1.blockNo ≤ 0xfffff := by
    rw [UInt32.le_iff_toNat_le, ready.number]
    exact fits.number
  have added := (addBlock_ok_iff order ctx.b1.blockNo (decide (n < file.length / start.blockSz)) fresh.size (Or.inl rfl)
    noBlock).mpr ⟨bound, by omega⟩
  obtain ⟨⟨counted, kept⟩, read⟩ := addBlock_reads order ctx.b1.blockNo (decide (n < file.length / start.blockSz))
    fresh.size (Or.inl rfl) noBlock bound (by omega)
  dsimp only at run
  generalize addBlock order cli.req.opts .block1 ctx.b1.blockNo (decide (n < file.length / start.blockSz))
    start.blockSz = blocked at added counted kept read run
  have untyped : ecOptsGet blocked.1 .contentType = none := by
    rw [kept .contentType (by decide)]
    exact noType
  have typed := (ecOptsAddUint_ok_iff order ct (by decide : ecOptSym2type .contentType = .uint) untyped).mpr (by omega)
  have spared : ecOptsGet (ecOptsAddUint order blocked.1 .contentType ct).1 .block1 = ecOptsGet blocked.1 .block1 :=
    ecOptsAddUint_spares .block1 (by decide) order ct
  have unconditional : ecOptsGet (ecOptsAddUint order blocked.1 .contentType ct).1 .ifNoneMatch =
      ecOptsGet blocked.1 .ifNoneMatch := ecOptsAddUint_spares .ifNoneMatch (by decide) order ct
  rw [if_neg (not_or.mpr ⟨not_not_intro added, not_not_intro typed⟩)] at run
  refine ⟨_, run, ?_⟩
  constructor
  case config =>
      have config := ready.config
      exact ⟨config.uri, config.method, config.pfn, config.observe, config.token, config.blockSz, config.publish,
        config.allowedMethods, config.useProxy⟩
  case going => rfl
  case number => exact ready.number
  case more => rfl
  case data => rfl
  case whole => exact ready.whole
  case plain =>
      change cli.observe.on = false
      rw [extended.observe]
      exact ready.plain
  case payload =>
      change (if fileBlock file start.blockSz n = [] then cli.req.payload else fileBlock file start.blockSz n) = _
      unfold roundPayload
      by_cases nothing : fileBlock file start.blockSz n = []
      · rw [if_pos nothing, if_pos nothing, extended.payload]
        rcases ready.loaded with zero | ⟨_, kept⟩
        · exact absurd nothing (fileBlock_first (by omega) fresh.size.pos zero)
        · exact kept
      · rw [if_neg nothing, if_neg nothing]
  case block1 =>
      unfold ecRequestGetBlock1
      rw [ecRequestGetBlock_congr order spared]
      exact read
  case unconditional =>
      unfold ecOptsGetIfNoneMatch
      dsimp only
      rw [unconditional, kept .ifNoneMatch (by decide), noCondition]
      rfl

/-- A round whose request does not have room ends in the failure of the client. -/
theorem clientRun_unfit (fresh : start.Fresh) (many : start.blockSz < file.length)
    (inside : n ≤ file.length / start.blockSz) (ready : ClientAt start file n ctx) (first : n = 0 → env.file = some file)
    (unfit : ¬ ClientFits order isAbsolute start env n) :
    ∃ request, clientRun order isAbsolute env true ctx = .ok (request, -1) ∧ request.fail = true := by
  have same := baseOptions_same order isAbsolute env ready.config
  by_cases base : (ctx.baseOptions order isAbsolute env).2 = 0
  · obtain ⟨ct, fallen, failing, run⟩ := clientRun_block fresh many inside ready first
      (Prod.ext rfl base : ctx.baseOptions order isAbsolute env = ((ctx.baseOptions order isAbsolute env).1, 0))
    have noBlock := baseOptions_absent order isAbsolute env ctx blockSym_notBase.1
    have noType := baseOptions_absent order isAbsolute env ctx
      blockSym_notBase.2.1
    dsimp only at run
    rw [if_pos] at run
    · exact ⟨fallen, run, failing⟩
    · by_contra both
      push Not at both
      have fits := (addBlock_ok_iff order _ _ fresh.size (Or.inl rfl) noBlock).mp both.1
      obtain ⟨⟨counted, kept⟩, _⟩ := addBlock_reads order ctx.b1.blockNo (decide (n < file.length / start.blockSz))
        fresh.size (Or.inl rfl) noBlock fits.1 fits.2
      have room := (ecOptsAddUint_ok_iff order ct (by decide : ecOptSym2type .contentType = .uint)
        (by rw [kept .contentType (by decide)]; exact noType)).mp both.2
      rw [counted, same.opts] at room
      have bound := UInt32.le_iff_toNat_le.mp fits.1
      rw [ready.number] at bound
      exact unfit ⟨same.rc.symm.trans base, room, bound⟩
  · rw [clientRun_put order isAbsolute env ctx (ready.config.method.trans fresh.put) (ready.config.pfn.trans fresh.loads),
      if_pos base]
    exact ⟨_, rfl, rfl⟩

/-- The client with the only request of a file that fits in a block. -/
structure RequestedWhole (order : ByteOrder) (file : List UInt8) (ctx : ClientCtx) : Prop where
  going : ctx.fail = false
  last : ctx.b1.more = false
  whole : ctx.b2.more = false
  plain : ctx.cli.observe.on = false
  payload : ctx.cli.req.payload = file
  noBlock : ecRequestGetBlock1 order ctx.cli.req.opts = none
  unconditional : ecOptsGetIfNoneMatch ctx.cli.req.opts = false

/-- The only request of a small file has room for its Content-Type option. -/
structure WholeFits (order : ByteOrder) (isAbsolute : List UInt8 → Bool) (start : ClientCtx) (env : RunEnv) : Prop where
  base : (start.baseOptions order isAbsolute env).2 = 0
  room : (start.baseOptions order isAbsolute env).1.req.opts.noptions < ecProtoMaxOptions

theorem setPayload_whole (order : ByteOrder) (ctx : ClientCtx) (data : List UInt8) (size : BlockSize ctx.blockSz)
    (few : data.length ≤ ctx.blockSz) (something : data ≠ []) :
    ctx.setPayload order data = .ok ({ctx with
      cli := {ctx.cli with req := {ctx.cli.req with payload := data}}, b1 := {ctx.b1 with more := false}}, 0) := by
  have positive := size.pos
  have own : ctx.blockSize = ctx.blockSz := if_neg (by omega)
  unfold ClientCtx.setPayload
  dsimp only
  rw [own, if_pos few, ecRequestSetPayload_init, if_neg something]

/-- The run that sends a small file adds Content-Type behind the payload. -/
theorem clientRun_whole (fresh : start.Fresh) (few : file.length ≤ start.blockSz) (something : file ≠ [])
    (first : env.file = some file) {cli : EcClient} (based : start.baseOptions order isAbsolute env = (cli, 0)) :
    ∃ ct, let typed := ecOptsAddUint order cli.req.opts .contentType ct
      let request : ClientCtx := {start with
        fail := false, data := file, b1 := {start.b1 with more := false},
        cli := {cli with req := {cli.req with opts := typed.1, payload := file}}}
      clientRun order isAbsolute env true start =
        if typed.2 ≠ 0 then .ok ({request with fail := true}, -1) else .ok (request, 0) := by
  have zero : start.b1.blockNo.toNat = 0 := by
    rw [fresh.first]
    rfl
  have set := setPayload_whole order {start with fail := false, cli := cli, data := file} file fresh.size few something
  refine ⟨(if start.mt = ecMtAny then ecMtTextPlain else start.mt).toUInt16.toUInt64, ?_⟩
  dsimp only at set ⊢
  rw [clientRun_put order isAbsolute env start fresh.put fresh.loads, based, if_neg (by simp)]
  unfold ClientCtx.putOptions
  rw [putOptions_loaded {start with fail := false, cli := cli} (Or.inl rfl) zero (fun _ => first)]
  dsimp only
  rw [set]
  unfold ecRequestAddContentType EcClient.adding ecOptsAddContentType
  dsimp only
  rw [if_neg (by decide)]

theorem clientRun_wholeFits (fresh : start.Fresh) (few : file.length ≤ start.blockSz) (something : file ≠ [])
    (first : env.file = some file) (fits : WholeFits order isAbsolute start env) :
    ∃ request, clientRun order isAbsolute env true start = .ok (request, 0) ∧ RequestedWhole order file request := by
  have extended := baseOptions_extends order isAbsolute env start blockSym_notBase.1
  have noBlock := baseOptions_absent order isAbsolute env start blockSym_notBase.1
  have noType := baseOptions_absent order isAbsolute env start
    blockSym_notBase.2.1
  have noCondition := baseOptions_absent order isAbsolute env start
    blockSym_notBase.2.2
  have room := fits.room
  obtain ⟨cli, based⟩ : ∃ cli, start.baseOptions order isAbsolute env = (cli, 0) := ⟨_, Prod.ext rfl fits.base⟩
  obtain ⟨ct, run⟩ := clientRun_whole fresh few something first based
  rw [based] at extended noBlock noType noCondition room
  dsimp only at noBlock noType noCondition room run
  have typed := (ecOptsAddUint_ok_iff order ct (by decide : ecOptSym2type .contentType = .uint) noType).mpr room
  have spared : ecOptsGet (ecOptsAddUint order cli.req.opts .contentType ct).1 .block1 = ecOptsGet cli.req.opts .block1 :=
    ecOptsAddUint_spares .block1 (by decide) order ct
  have unconditional : ecOptsGet (ecOptsAddUint order cli.req.opts .contentType ct).1 .ifNoneMatch =
      ecOptsGet cli.req.opts .ifNoneMatch := ecOptsAddUint_spares .ifNoneMatch (by decide) order ct
  rw [if_neg (not_not_intro typed)] at run
  refine ⟨_, run, ?_⟩
  constructor
  case going => rfl
  case last => rfl
  case whole => exact fresh.whole
  case plain =>
      change cli.observe.on = false
      rw [extended.observe]
      exact fresh.plain
  case payload => rfl
  case noBlock =>
      unfold ecRequestGetBlock1
      rw [ecRequestGetBlock_congr order spared]
      unfold ecRequestGetBlock ecOptsGetBlock
      rw [if_neg (by decide), absent_uint order noBlock]
      rfl
  case unconditional =>
      unfold ecOptsGetIfNoneMatch
      dsimp only
      rw [unconditional, noCondition]
      rfl

theorem clientRun_wholeUnfit (fresh : start.Fresh) (few : file.length ≤ start.blockSz) (something : file ≠ [])
    (first : env.file = some file) (unfit : ¬ WholeFits order isAbsolute start env) :
    ∃ request, clientRun order isAbsolute env true start = .ok (request, -1) ∧ request.fail = true := by
  by_cases base : (start.baseOptions order isAbsolute env).2 = 0
  · obtain ⟨ct, run⟩ := clientRun_whole fresh few something first
      (Prod.ext rfl base : start.baseOptions order isAbsolute env = ((start.baseOptions order isAbsolute env).1, 0))
    have noType := baseOptions_absent order isAbsolute env start
      blockSym_notBase.2.1
    dsimp only at run
    rw [if_pos] at run
    · exact ⟨_, run, rfl⟩
    · intro typed
      exact unfit ⟨base, (ecOptsAddUint_ok_iff order ct (by decide : ecOptSym2type .contentType = .uint) noType).mp typed⟩
  · rw [clientRun_put order isAbsolute env start fresh.put fresh.loads, if_pos base]
    exact ⟨_, rfl, rfl⟩

end Client

section Server

variable (order : ByteOrder) (ctx : ServerCtx) (call : ServerCall) (ref : RepRef)

/-- The response to a block that `serve_put` has accepted. -/
structure Accepted (block : Option BlockInfo) (response : Response) : Prop where
  code : response.code = ecChanged
  payload : response.payload = []
  block1 : ecResponseGetBlock1 order response.opts = block
  block2 : ecResponseGetBlock2 order response.opts = none

theorem response_new_absent (sym : EcOptSym) : ecOptsGet Response.new.opts sym = none := rfl

/-- A set without a Block option of the symbol has none to hand out. -/
theorem ecRequestGetBlock_absent {opts : EcOpts} {which : EcOptSym} (absent : ecOptsGet opts which = none) :
    ecRequestGetBlock order opts which = none := by
  unfold ecRequestGetBlock ecOptsGetBlock
  rw [absent_uint order absent]
  split <;> rfl

/-- The block that is expected next is added to the response and appended to the buffer. -/
theorem receiveBlock_expected (request : Request) {more : Bool} {bsz : Nat}
    (block : ecRequestGetBlock1 order request.opts = some ⟨ctx.b1.bnum, more, bsz⟩) (number : ctx.b1.bnum ≤ 0xfffff)
    (size : BlockSize bsz) (small : bsz ≤ ctx.blockSize) :
    ∃ response, receiveBlock order ctx request Response.new =
        ⟨ctx.counted.append request.payload, response, some more⟩ ∧
      Accepted order (some ⟨ctx.b1.bnum, more, bsz⟩) (response.setCode ecChanged) := by
  have bounded : boundedSize ctx.blockSize bsz = bsz := by
    unfold boundedSize
    rw [if_neg (Nat.pos_iff_ne_zero.mp size.pos)]
    exact Nat.min_eq_right small
  have room : Response.new.opts.noptions < ecProtoMaxOptions := by decide
  have added := (addBlock_ok_iff order ctx.b1.bnum more size (Or.inl rfl) (response_new_absent .block1)).mpr
    ⟨number, room⟩
  obtain ⟨⟨_, kept⟩, read⟩ := addBlock_reads order ctx.b1.bnum more size (Or.inl rfl) (response_new_absent .block1)
    number room
  unfold receiveBlock Response.adding
  rw [block]
  dsimp only
  rw [if_neg (not_not_intro rfl), bounded, if_neg (not_not_intro added)]
  refine ⟨_, rfl, rfl, rfl, read, ?_⟩
  apply ecRequestGetBlock_absent
  exact (kept .block2 (by decide)).trans (response_new_absent .block2)

/-- A block with another number than the expected one fails. -/
theorem receiveBlock_unexpected (request : Request) {block : BlockInfo} (response : Response)
    (found : ecRequestGetBlock1 order request.opts = some block) (other : block.bnum ≠ ctx.b1.bnum) :
    (receiveBlock order ctx request response).more = none := by
  unfold receiveBlock
  rw [found]
  dsimp only
  rw [if_pos other]

/-- The answers ahead of the Block1 handling. -/
theorem servePut_large {response : Response} (unconditional : ecOptsGetIfNoneMatch call.request.opts = false)
    (large : call.request.payload.length > ctx.blockSize) :
    servePut order ctx call ref response = ⟨ctx, response.setCode ecRequestEntityTooLarge, 0, none⟩ := by
  unfold servePut
  dsimp only
  rw [if_neg (by simp [unconditional]), if_pos large]

theorem servePut_unexpected {block : BlockInfo} (response : Response)
    (unconditional : ecOptsGetIfNoneMatch call.request.opts = false)
    (small : call.request.payload.length ≤ ctx.blockSize)
    (found : ecRequestGetBlock1 order call.request.opts = some block) (other : block.bnum ≠ ctx.b1.bnum) :
    ∃ left answer, servePut order ctx call ref response = failed left answer := by
  have refused := receiveBlock_unexpected order ctx call.request response found other
  unfold servePut
  dsimp only
  rw [if_neg (by simp [unconditional]), if_neg (by omega), refused]
  exact ⟨_, _, rfl⟩

/-- A block in the middle of a transfer is only appended. -/
theorem servePut_middle {bsz : Nat} (unconditional : ecOptsGetIfNoneMatch call.request.opts = false)
    (small : call.request.payload.length ≤ ctx.blockSize)
    (block : ecRequestGetBlock1 order call.request.opts = some ⟨ctx.b1.bnum, true, bsz⟩) (number : ctx.b1.bnum ≤ 0xfffff)
    (size : BlockSize bsz) (fits : bsz ≤ ctx.blockSize) :
    ∃ response, servePut order ctx call ref Response.new =
        ⟨ctx.counted.append call.request.payload, response, 0, none⟩ ∧
      Accepted order (some ⟨ctx.b1.bnum, true, bsz⟩) response := by
  obtain ⟨response, received, accepted⟩ := receiveBlock_expected order ctx call.request block number size fits
  unfold servePut
  dsimp only
  rw [if_neg (by simp [unconditional]), if_neg (by omega), received]
  exact ⟨_, rfl, accepted⟩

/-- The end of a transfer stores what is in the buffer then, in the resource of the representation that was found. -/
theorem servePut_stores {received : Receipt} {res : EcRes} {block : Option BlockInfo} {response : Response}
    (unconditional : ecOptsGetIfNoneMatch call.request.opts = false)
    (small : call.request.payload.length ≤ ctx.blockSize)
    (receives : receiveBlock order ctx call.request response = received) (ends : received.more = some false)
    (accepted : Accepted order block (received.response.setCode ecChanged))
    (found : ecRepGetRes ctx.fs ref = some res) (inside : ref.index < res.reps.length) :
    ∃ rep res', (servePut order ctx call ref response).stored = some rep ∧
      rep.data = received.ctx.resbuf.getD [] ∧
      ecRepGetRes (servePut order ctx call ref response).ctx.fs ref = some res' ∧ rep ∈ res'.reps ∧
      Accepted order block (servePut order ctx call ref response).response := by
  have named : ref.uri ≠ [] := by
    intro empty
    unfold ecRepGetRes ecFilesysGetResource at found
    rw [if_pos empty] at found
    cases found
  unfold servePut
  dsimp only
  rw [if_neg (by simp [unconditional]), if_neg (by omega), receives, ends, found]
  dsimp only
  refine ⟨_, _, rfl, rfl, EcFilesys.modified_self _ _ named, ?_, ?_⟩
  · split
    · exact ecRepDel_added res _ _ _ inside
    · exact List.mem_append_right _ (List.mem_singleton.mpr rfl)
  · obtain ⟨code, payload, block1, block2⟩ := accepted
    have etag : ∀ kept, .etag ≠ kept → ecOptsGet (ecOptsAddEtag received.response.opts call.etag.toList).1 kept =
        ecOptsGet received.response.opts kept := fun kept other => ecOptsAddShortOpaque_spares kept other _
    refine ⟨rfl, payload, ?_, ?_⟩
    · rw [← block1]
      exact ecRequestGetBlock_congr order (etag .block1 (by decide))
    · rw [← block2]
      exact ecRequestGetBlock_congr order (etag .block2 (by decide))

end Server

section Callback

variable (order : ByteOrder) (saved : Bool) (ctx : ClientCtx) (response : Response)

theorem responseCb_refused (refused : ¬ ecIsOk response.code) :
    (responseCb order .reqDone response saved ctx).1 = {ctx with fail := true} := by
  unfold responseCb
  dsimp only
  rw [if_neg (by decide), if_pos refused]

/-- An accepted block moves the client on to the next one. -/
theorem responseCb_block {block : BlockInfo} (accepted : Accepted order (some block) response)
    (plain : ctx.cli.observe.on = false) (same : block.bnum = ctx.b1.blockNo) :
    (responseCb order .reqDone response saved ctx).1 =
      {ctx with b1 := {ctx.b1 with blockNo := ctx.b1.blockNo + 1, blockSz := block.bsz}} := by
  obtain ⟨code, payload, block1, block2⟩ := accepted
  unfold responseCb
  dsimp only
  rw [if_neg (by decide), code, if_neg (by decide), payload, if_neg (by simp), block1, block2]
  simp only [same, plain, ne_eq, not_true_eq_false, if_false, Bool.true_eq_false, Bool.false_eq_true, and_false]

theorem responseCb_whole (accepted : Accepted order none response) (plain : ctx.cli.observe.on = false) :
    (responseCb order .reqDone response saved ctx).1 = ctx := by
  obtain ⟨code, payload, block1, block2⟩ := accepted
  unfold responseCb
  dsimp only
  rw [if_neg (by decide), code, if_neg (by decide), payload, if_neg (by simp), block1, block2]
  dsimp only
  rw [if_neg (by decide), if_neg (by decide), if_neg (by simp [plain])]

end Callback

/-- Both ends ahead of a round, after the rounds before it: the buffer has got the blocks so far. -/
structure UploadAt (start : Upload) (file : List UInt8) (n : Nat) (u : Upload) : Prop where
  client : ClientAt start.client file n u.client
  expected : u.server.b1.bnum = u.client.b1.blockNo
  buffer : u.server.resbuf.getD [] = start.server.resbuf.getD [] ++ file.take (n * start.client.blockSz)
  fs : u.server.fs = start.server.fs
  bsz : u.server.blockSize = start.server.blockSize

section Loop

variable {order : ByteOrder} {isAbsolute : List UInt8 → Bool} {target : Request} {ref : RepRef} {rounds : Nat → Round}
  {start u : Upload} {file : List UInt8} {n : Nat} {res : EcRes}

/-- A failed client ends the upload. -/
theorem uploadAgain_failed {u : Upload} (failing : u.client.fail = true) : uploadAgain u = false := by
  unfold uploadAgain
  rw [failing, Bool.not_true, Bool.and_false]

variable (target ref) in
theorem uploadRound_unfit {request : ClientCtx}
    (run : clientRun order isAbsolute (rounds n).run true u.client = .ok (request, -1)) (failing : request.fail = true) :
    ∃ next, uploadRound order isAbsolute target ref rounds n u = .ok next ∧ next.client.fail = true := by
  unfold uploadRound
  rw [run]
  exact ⟨_, rfl, failing⟩

/-- A round whose request was made is what the server and the callback make of it. -/
theorem uploadRound_requested {request : ClientCtx}
    (run : clientRun order isAbsolute (rounds n).run true u.client = .ok (request, 0)) :
    uploadRound order isAbsolute target ref rounds n u =
      let served := servePut order u.server (uploadCall target rounds request n) ref Response.new
      .ok ⟨(responseCb order .reqDone served.response (rounds n).saved request).1, served.ctx, served.stored⟩ := by
  unfold uploadRound
  rw [run]
  dsimp only
  rw [if_neg (by decide)]

variable (target ref) in
theorem uploadRound_refused {request : ClientCtx}
    (run : clientRun order isAbsolute (rounds n).run true u.client = .ok (request, 0))
    (refused : ¬ ecIsOk (servePut order u.server (uploadCall target rounds request n) ref Response.new).response.code) :
    ∃ next, uploadRound order isAbsolute target ref rounds n u = .ok next ∧ next.client.fail = true := by
  rw [uploadRound_requested run]
  refine ⟨_, rfl, ?_⟩
  rw [responseCb_refused order _ _ _ refused]

/-- The payload of a round is no larger than a block. -/
theorem roundPayload_length (file : List UInt8) (bsz n : Nat) : (roundPayload file bsz n).length ≤ bsz := by
  unfold roundPayload fileBlock
  split
  · exact List.length_take_le _ _
  · exact List.length_take_le _ _

theorem roundPayload_middle {bsz : Nat} (positive : 0 < bsz) (inside : n < file.length / bsz) :
    roundPayload file bsz n = fileBlock file bsz n := by
  unfold roundPayload
  apply if_neg
  intro nothing
  have length := fileBlock_length inside
  rw [nothing, List.length_nil] at length
  omega

/-- The request of a round has the number of the block that the server expects. -/
theorem UploadAt.numbered {request : ClientCtx} (held : UploadAt start file n u)
    (requested : Requested order start.client file n request)
    (fits : ClientFits order isAbsolute start.client (rounds n).run n) :
    request.b1.blockNo = u.server.b1.bnum ∧ u.server.b1.bnum ≤ 0xfffff := by
  have same : request.b1.blockNo = u.server.b1.bnum := by
    rw [held.expected]
    apply UInt32.toNat_inj.mp
    rw [requested.number, held.client.number]
  refine ⟨same, ?_⟩
  rw [← same, UInt32.le_iff_toNat_le, requested.number]
  exact fits.number

/-- The payload of a round is not longer than the server's block size. -/
theorem UploadAt.short {request : ClientCtx} (held : UploadAt start file n u)
    (requested : Requested order start.client file n request)
    (small : start.client.blockSz ≤ start.server.blockSize) : request.cli.req.payload.length ≤ u.server.blockSize := by
  have length := roundPayload_length file start.client.blockSz n
  rw [requested.payload, held.bsz]
  omega

variable (target ref) in
/-- A round before the last one keeps what is known of both ends. -/
theorem uploadRound_goes (fresh : start.client.Fresh) (many : start.client.blockSz < file.length)
    (inside : n < file.length / start.client.blockSz) (held : UploadAt start file n u)
    (first : n = 0 → (rounds n).run.file = some file)
    (fits : ClientFits order isAbsolute start.client (rounds n).run n)
    (small : start.client.blockSz ≤ start.server.blockSize) :
    ∃ next, uploadRound order isAbsolute target ref rounds n u = .ok next ∧ uploadAgain next = true ∧
      UploadAt start file (n + 1) next := by
  obtain ⟨request, run, requested⟩ := clientRun_fits fresh many (Nat.le_of_lt inside) held.client first fits
  obtain ⟨same, bound⟩ := held.numbered requested fits
  have block := requested.block1
  rw [same, decide_eq_true inside] at block
  have payload := requested.payload
  obtain ⟨response, served, accepted⟩ := servePut_middle order u.server
    (uploadCall target rounds request n) ref requested.unconditional
    (by exact held.short requested small)
    block bound fresh.size (by rw [held.bsz]; exact small)
  rw [uploadRound_requested run, served]
  dsimp only
  rw [responseCb_block order _ _ _ accepted requested.plain same.symm]
  refine ⟨_, rfl, ?_, ?_⟩
  · unfold uploadAgain
    dsimp only
    rw [requested.more, requested.going, decide_eq_true inside]
    rfl
  · have config := requested.config
    refine ⟨⟨⟨config.uri, config.method, config.pfn, config.observe, config.token, config.blockSz, config.publish,
      config.allowedMethods, config.useProxy⟩, ?_, Or.inr ⟨requested.data, ?_⟩, requested.whole, requested.plain⟩, ?_, ?_,
      held.fs, held.bsz⟩
    · change (request.b1.blockNo + 1).toNat = n + 1
      have number := requested.number
      have limit := fits.number
      rw [UInt32.toNat_add, number]
      change (n + 1) % 2 ^ 32 = n + 1
      omega
    · change request.cli.req.payload = fileBlock file start.client.blockSz n
      rw [payload]
      exact roundPayload_middle fresh.size.pos inside
    · change u.server.b1.bnum + 1 = request.b1.blockNo + 1
      rw [same]
    · change u.server.resbuf.getD [] ++ request.cli.req.payload = _
      rw [held.buffer, payload, roundPayload_middle fresh.size.pos inside, List.append_assoc, fileBlock_append]

/-- What the last round leaves: the client is content, and the representation that was stored is in its resource. -/
structure Stored (data : List UInt8) (ref : RepRef) (u : Upload) : Prop where
  going : u.client.fail = false
  kept : ∃ rep res, u.stored = some rep ∧ rep.data = data ∧ ecRepGetRes u.server.fs ref = some res ∧ rep ∈ res.reps

theorem Stored.complete_iff {data : List UInt8} (stored : Stored data ref u) : u.Complete ref file ↔ data = file := by
  obtain ⟨going, rep, res, kept, content, found, member⟩ := stored
  constructor
  · rintro ⟨_, rep', kept', content', _⟩
    rw [kept] at kept'
    cases kept'
    rw [← content, content']
  · intro same
    exact ⟨going, rep, kept, content.trans same, res, found, member⟩

variable (target ref) in
/-- The last round of an upload in blocks stores what the rounds have sent. -/
theorem uploadRound_ends (fresh : start.client.Fresh) (many : start.client.blockSz < file.length)
    (last : n = file.length / start.client.blockSz) (held : UploadAt start file n u)
    (first : n = 0 → (rounds n).run.file = some file)
    (fits : ClientFits order isAbsolute start.client (rounds n).run n)
    (small : start.client.blockSz ≤ start.server.blockSize) (found : ecRepGetRes start.server.fs ref = some res)
    (inside : ref.index < res.reps.length) :
    ∃ next, uploadRound order isAbsolute target ref rounds n u = .ok next ∧ uploadAgain next = false ∧
      Stored (start.server.resbuf.getD [] ++ file.take (n * start.client.blockSz) ++
        roundPayload file start.client.blockSz n) ref next := by
  obtain ⟨request, run, requested⟩ := clientRun_fits fresh many (Nat.le_of_eq last) held.client first fits
  have ended : ¬ n < file.length / start.client.blockSz := by omega
  obtain ⟨same, bound⟩ := held.numbered requested fits
  have block := requested.block1
  rw [same, decide_eq_false ended] at block
  have payload := requested.payload
  obtain ⟨answer, received, accepted⟩ := receiveBlock_expected order u.server
    (uploadCall target rounds request n).request block bound fresh.size (by rw [held.bsz]; exact small)
  obtain ⟨rep, res', stored, data, kept, member, answered⟩ := servePut_stores order u.server
    (uploadCall target rounds request n) ref requested.unconditional
    (by exact held.short requested small)
    received rfl accepted (by rw [held.fs]; exact found) inside
  rw [uploadRound_requested run]
  dsimp only
  rw [responseCb_block order _ _ _ answered requested.plain same.symm]
  refine ⟨_, rfl, ?_, requested.going, rep, res', stored, ?_, kept, member⟩
  · unfold uploadAgain
    dsimp only
    rw [requested.more, requested.whole, decide_eq_false ended]
    rfl
  · rw [data]
    change u.server.resbuf.getD [] ++ request.cli.req.payload = _
    rw [held.buffer, payload]

/-- The blocks that were sent make up the file exactly when its length is not a multiple of the block size. -/
theorem sentBlocks_iff {before : List UInt8} {bsz : Nat} (positive : 0 < bsz) (many : bsz < file.length) :
    before ++ file.take (file.length / bsz * bsz) ++ roundPayload file bsz (file.length / bsz) = file ↔
      before = [] ∧ ¬ bsz ∣ file.length := by
  have whole := Nat.div_mul_le_self file.length bsz
  have rest : fileBlock file bsz (file.length / bsz) = file.drop (file.length / bsz * bsz) := fileBlock_last positive
  by_cases multiple : bsz ∣ file.length
  · have exact : file.length / bsz * bsz = file.length := Nat.div_mul_cancel multiple
    have some : 0 < file.length / bsz := Nat.div_pos (Nat.le_of_lt many) positive
    have again : roundPayload file bsz (file.length / bsz) = fileBlock file bsz (file.length / bsz - 1) := by
      unfold roundPayload
      apply if_pos
      rw [rest, exact, List.drop_length]
    have length : (fileBlock file bsz (file.length / bsz - 1)).length = bsz := fileBlock_length (by omega)
    constructor
    · intro same
      have lengths := congrArg List.length same
      rw [again, List.length_append, List.length_append, length, exact, List.take_length] at lengths
      omega
    · intro both
      exact absurd multiple both.2
  · have left : fileBlock file bsz (file.length / bsz) ≠ [] := by
      rw [rest]
      intro nothing
      have all := List.drop_eq_nil_iff.mp nothing
      exact multiple ⟨file.length / bsz, by rw [Nat.mul_comm]; omega⟩
    have own : roundPayload file bsz (file.length / bsz) = file.drop (file.length / bsz * bsz) := by
      unfold roundPayload
      rw [if_neg left, rest]
    rw [own, List.append_assoc, List.take_append_drop]
    constructor
    · intro same
      exact ⟨List.append_left_eq_self.mp same, multiple⟩
    · rintro ⟨rfl, _⟩
      rfl

variable (target ref) in
/-- The only round of a small file stores what was in the buffer with the file behind it. -/
theorem uploadRound_whole (fresh : start.client.Fresh) (few : file.length ≤ start.client.blockSz) (something : file ≠ [])
    (first : (rounds 0).run.file = some file) (fits : WholeFits order isAbsolute start.client (rounds 0).run)
    (small : file.length ≤ start.server.blockSize) (found : ecRepGetRes start.server.fs ref = some res)
    (inside : ref.index < res.reps.length) :
    ∃ next, uploadRound order isAbsolute target ref rounds 0 start = .ok next ∧ uploadAgain next = false ∧
      Stored (start.server.resbuf.getD [] ++ file) ref next := by
  obtain ⟨request, run, requested⟩ := clientRun_wholeFits fresh few something first fits
  have received : receiveBlock order start.server (uploadCall target rounds request 0).request Response.new =
      ⟨start.server.append request.cli.req.payload, Response.new, some false⟩ := by
    have none : ecRequestGetBlock1 order (uploadCall target rounds request 0).request.opts = none := requested.noBlock
    unfold receiveBlock
    rw [none]
    rfl
  obtain ⟨rep, res', stored, data, kept, member, answered⟩ := servePut_stores order start.server
    (uploadCall target rounds request 0) ref requested.unconditional
    (by
      change request.cli.req.payload.length ≤ _
      rw [requested.payload]
      exact small)
    received rfl
    ⟨rfl, rfl, ecRequestGetBlock_absent order (response_new_absent .block1),
      ecRequestGetBlock_absent order (response_new_absent .block2)⟩ found inside
  rw [uploadRound_requested run]
  dsimp only
  rw [responseCb_whole order _ _ _ answered requested.plain]
  refine ⟨_, rfl, ?_, requested.going, rep, res', stored, ?_, kept, member⟩
  · unfold uploadAgain
    dsimp only
    rw [requested.last, requested.whole]
    rfl
  · rw [data]
    change start.server.resbuf.getD [] ++ request.cli.req.payload = _
    rw [requested.payload]

/-- The server is about to take the first block of the client. -/
theorem uploadAt_start (fresh : start.client.Fresh) (number : start.server.b1.bnum = 0) : UploadAt start file 0 start := by
  refine ⟨⟨⟨rfl, rfl, rfl, rfl, rfl, rfl, rfl, rfl, rfl⟩, ?_, Or.inl rfl, fresh.whole, fresh.plain⟩, ?_, ?_, rfl, rfl⟩
  · rw [fresh.first]
    rfl
  · rw [fresh.first, number]
  · rw [Nat.zero_mul, List.take_zero, List.append_nil]

variable (order isAbsolute target ref) in
/-- A server that takes smaller blocks only, or expects another block, turns the first block down. -/
theorem uploadRound_turnedDown (fresh : start.client.Fresh) (many : start.client.blockSz < file.length)
    (first : (rounds 0).run.file = some file)
    (unready : ¬ (start.client.blockSz ≤ start.server.blockSize ∧ start.server.b1.bnum = 0)) :
    ∃ next, uploadRound order isAbsolute target ref rounds 0 start = .ok next ∧ next.client.fail = true := by
  have ready : ClientAt start.client file 0 start.client := by
    refine ⟨⟨rfl, rfl, rfl, rfl, rfl, rfl, rfl, rfl, rfl⟩, ?_, Or.inl rfl, fresh.whole, fresh.plain⟩
    rw [fresh.first]
    rfl
  by_cases fits : ClientFits order isAbsolute start.client (rounds 0).run 0
  · obtain ⟨request, run, requested⟩ := clientRun_fits fresh many (Nat.zero_le _) ready (fun _ => first) fits
    apply uploadRound_refused target ref run
    have positive := fresh.size.pos
    have some : 0 < file.length / start.client.blockSz := Nat.div_pos (Nat.le_of_lt many) positive
    have payload := requested.payload
    rw [roundPayload_middle positive some] at payload
    by_cases large : request.cli.req.payload.length > start.server.blockSize
    · rw [servePut_large order start.server (uploadCall target rounds request 0) ref requested.unconditional large]
      change ¬ ecIsOk ecRequestEntityTooLarge
      decide
    · rw [payload, fileBlock_length some] at large
      have other : request.b1.blockNo ≠ start.server.b1.bnum := by
        intro same
        have number : request.b1.blockNo = 0 := UInt32.toNat_inj.mp requested.number
        exact unready ⟨by omega, same.symm.trans number⟩
      have small : request.cli.req.payload.length ≤ start.server.blockSize := by
        rw [payload, fileBlock_length some]
        omega
      obtain ⟨left, answer, served⟩ := servePut_unexpected order start.server
        (uploadCall target rounds request 0) ref Response.new requested.unconditional small
        requested.block1 other
      rw [served]
      change ¬ ecIsOk ecInternalServerError
      decide
  · obtain ⟨request, run, failing⟩ := clientRun_unfit fresh many (Nat.zero_le _) ready (fun _ => first) fits
    exact uploadRound_unfit target ref run failing

/-- Once an upload is known to end, it comes through exactly when its end is complete. -/
theorem upload_ended_iff {fuel : Nat} {done : Upload}
    (ended : upload order isAbsolute target ref rounds fuel start = .ok (some done)) :
    (∃ fuel done, upload order isAbsolute target ref rounds fuel start = .ok (some done) ∧ done.Complete ref file) ↔
      done.Complete ref file := by
  constructor
  · rintro ⟨_, other, ended', complete⟩
    rw [doWhile_unique ended ended']
    exact complete
  · intro complete
    exact ⟨fuel, done, ended, complete⟩

theorem upload_failed {fuel : Nat} {done : Upload}
    (ended : upload order isAbsolute target ref rounds fuel start = .ok (some done)) (failing : done.client.fail = true) :
    ¬ ∃ fuel done, upload order isAbsolute target ref rounds fuel start = .ok (some done) ∧ done.Complete ref file := by
  rw [upload_ended_iff ended]
  intro complete
  rw [complete.1] at failing
  cases failing

end Loop

/-- The condition of an upload: nothing is in the buffer of the server, a small file is within its limit, and a large one
is no multiple of the block size, which is within the limit; the requests have room for their options. -/
structure UploadFits (order : ByteOrder) (isAbsolute : List UInt8 → Bool) (rounds : Nat → Round) (start : Upload)
    (file : List UInt8) : Prop where
  idle : start.server.resbuf.getD [] = []
  whole : file.length ≤ start.client.blockSz →
    file.length ≤ start.server.blockSize ∧ WholeFits order isAbsolute start.client (rounds 0).run
  blocks : start.client.blockSz < file.length →
    start.client.blockSz ≤ start.server.blockSize ∧ ¬ start.client.blockSz ∣ file.length ∧ start.server.b1.bnum = 0 ∧
      ∀ n ≤ file.length / start.client.blockSz, ClientFits order isAbsolute start.client (rounds n).run n

section Main

variable {order : ByteOrder} {isAbsolute : List UInt8 → Bool} {target : Request} {ref : RepRef} {rounds : Nat → Round}
  {start : Upload} {file : List UInt8} {res : EcRes}

theorem upload_whole_iff (fresh : start.client.Fresh) (few : file.length ≤ start.client.blockSz) (something : file ≠ [])
    (first : (rounds 0).run.file = some file) (found : ecRepGetRes start.server.fs ref = some res)
    (inside : ref.index < res.reps.length) :
    (∃ fuel done, upload order isAbsolute target ref rounds fuel start = .ok (some done) ∧ done.Complete ref file) ↔
      start.server.resbuf.getD [] = [] ∧ file.length ≤ start.server.blockSize ∧
        WholeFits order isAbsolute start.client (rounds 0).run := by
  by_cases fits : WholeFits order isAbsolute start.client (rounds 0).run
  · by_cases small : file.length ≤ start.server.blockSize
    · obtain ⟨done, run, ends, stored⟩ := uploadRound_whole target ref fresh few something first fits small found
        inside
      rw [upload_ended_iff (doWhile_last 0 run ends), stored.complete_iff, List.append_left_eq_self]
      exact ⟨fun empty => ⟨empty, small, fits⟩, fun both => both.1⟩
    · obtain ⟨request, made, requested⟩ := clientRun_wholeFits fresh few something first fits
      have large : request.cli.req.payload.length > start.server.blockSize := by
        rw [requested.payload]
        omega
      obtain ⟨done, run, failing⟩ := uploadRound_refused target ref made (by
        rw [servePut_large order start.server (uploadCall target rounds request 0) ref requested.unconditional large]
        change ¬ ecIsOk ecRequestEntityTooLarge
        decide)
      exact iff_of_false (upload_failed (doWhile_last 0 run (uploadAgain_failed failing)) failing) fun both => small both.2.1
  · obtain ⟨request, made, failing⟩ := clientRun_wholeUnfit fresh few something first fits
    obtain ⟨done, run, failed⟩ := uploadRound_unfit target ref made failing
    exact iff_of_false (upload_failed (doWhile_last 0 run (uploadAgain_failed failed)) failed) fun both => fits both.2.2

theorem upload_blocks_iff (fresh : start.client.Fresh) (many : start.client.blockSz < file.length)
    (first : (rounds 0).run.file = some file) (found : ecRepGetRes start.server.fs ref = some res)
    (inside : ref.index < res.reps.length) :
    (∃ fuel done, upload order isAbsolute target ref rounds fuel start = .ok (some done) ∧ done.Complete ref file) ↔
      start.server.resbuf.getD [] = [] ∧ start.client.blockSz ≤ start.server.blockSize ∧
        ¬ start.client.blockSz ∣ file.length ∧ start.server.b1.bnum = 0 ∧
          ∀ n ≤ file.length / start.client.blockSz, ClientFits order isAbsolute start.client (rounds n).run n := by
  have loads : ∀ n, n = 0 → (rounds n).run.file = some file := by
    rintro n rfl
    exact first
  by_cases ready : start.client.blockSz ≤ start.server.blockSize ∧ start.server.b1.bnum = 0
  · obtain ⟨small, number⟩ := ready
    have begins : UploadAt start file 0 start := uploadAt_start fresh number
    by_cases fits : ∀ n ≤ file.length / start.client.blockSz, ClientFits order isAbsolute start.client (rounds n).run n
    · obtain ⟨fuel, done, ended, stored⟩ := doWhile_ends (UploadAt start file) _ (file.length / start.client.blockSz)
        (fun n u before held => uploadRound_goes target ref fresh many before held (loads n)
          (fits n (Nat.le_of_lt before)) small)
        (fun u held => uploadRound_ends target ref fresh many rfl held (loads _) (fits _ (Nat.le_refl _)) small found inside)
        (Nat.zero_le _) begins
      rw [upload_ended_iff ended, stored.complete_iff, sentBlocks_iff fresh.size.pos many]
      constructor
      · rintro ⟨empty, rest⟩
        exact ⟨empty, small, rest, number, fits⟩
      · rintro ⟨empty, _, rest, _⟩
        exact ⟨empty, rest⟩
    · -- The first round without room is the last one that is made.
      have some : ∃ n, n ≤ file.length / start.client.blockSz ∧
          ¬ ClientFits order isAbsolute start.client (rounds n).run n := by
        push Not at fits
        exact fits
      classical
      obtain ⟨within, unfit⟩ := Nat.find_spec some
      have earlier : ∀ n < Nat.find some, ClientFits order isAbsolute start.client (rounds n).run n := by
        intro n before
        by_contra without
        exact Nat.find_min some before ⟨by omega, without⟩
      obtain ⟨fuel, done, ended, failing⟩ := doWhile_ends (UploadAt start file) (fun u => u.client.fail = true)
        (Nat.find some)
        (fun n u before held => uploadRound_goes target ref fresh many (by omega) held (loads n)
          (earlier n before) small)
        (fun u held => by
          obtain ⟨request, made, failing⟩ := clientRun_unfit fresh many within held.client (loads _) unfit
          obtain ⟨next, run, failed⟩ := uploadRound_unfit target ref made failing
          exact ⟨next, run, uploadAgain_failed failed, failed⟩)
        (Nat.zero_le _) begins
      exact iff_of_false (upload_failed ended failing) fun both => fits both.2.2.2.2
  · obtain ⟨done, run, failing⟩ := uploadRound_turnedDown order isAbsolute target ref
      fresh many first ready
    exact iff_of_false (upload_failed (doWhile_last 0 run (uploadAgain_failed failing)) failing)
      fun both => ready ⟨both.2.1, both.2.2.2.1⟩

/-- An upload stores the file exactly under its condition, for every file, block size and pair of ends. -/
theorem upload_iff (fresh : start.client.Fresh) (something : file ≠ []) (first : (rounds 0).run.file = some file)
    (found : ecRepGetRes start.server.fs ref = some res) (inside : ref.index < res.reps.length) :
    (∃ fuel done, upload order isAbsolute target ref rounds fuel start = .ok (some done) ∧ done.Complete ref file) ↔
      UploadFits order isAbsolute rounds start file := by
  by_cases few : file.length ≤ start.client.blockSz
  · rw [upload_whole_iff fresh few something first found inside]
    constructor
    · rintro ⟨empty, small, fits⟩
      exact ⟨empty, fun _ => ⟨small, fits⟩, fun many => absurd few (by omega)⟩
    · rintro ⟨empty, whole, _⟩
      exact ⟨empty, whole few⟩
  · rw [upload_blocks_iff fresh (by omega) first found inside]
    constructor
    · rintro ⟨empty, blocks⟩
      exact ⟨empty, fun small => absurd small few, fun _ => blocks⟩
    · rintro ⟨empty, _, blocks⟩
      exact ⟨empty, blocks (by omega)⟩

end Main

/-- A client that puts a file in blocks of 16 bytes. -/
def blockwisePut : ClientCtx where
  cli := {confirmableGet with flow := {confirmableGet.flow with method := .put}}
  uri := []
  method := .put
  pfn := true
  observe := 0
  fail := false
  token := false
  blockSz := 16
  data := []
  b1 := ⟨0, false, 0⟩
  b2 := ⟨0, false, 0⟩
  iblock := 0
  mt := ecMtAny
  publish := false
  allowedMethods := 0
  useProxy := false

/-- The resource `/r` with an empty text. -/
def emptyText : EcRes := ⟨[47, 114], ecMethodMaskAll, 60, EcResAttrs.zero, [⟨ecMtTextPlain, Vector.replicate 4 0, []⟩]⟩

/-- A server with nothing but that resource. -/
def textServer : ServerCtx where
  resources := [[47, 114]]
  fs := (ecFilesysPutResource (ecFilesysCreate false) emptyText).1
  bsz := 0
  sep := ⟨0, 0⟩
  b1 := BlockOpt.zero
  resbuf := none
  resnum := 0

def textTarget : Request := ⟨loopback, .put, [47, 114], [47, 114], [47, 114], false, ecOptsInit, []⟩

/-- The URI is `coap://[::1]/r` in every round. -/
def textRounds (file : List UInt8) (_ : Nat) : Round :=
  ⟨⟨some ⟨coapScheme, [58, 58, 49], [47, 114], [], false⟩, Vector.replicate 8 0, some file⟩, Vector.replicate 4 1, true⟩

def textUpload (file : List UInt8) (fuel : Nat) : Except EcFault (Option Upload) :=
  upload .little (fun _ => false) textTarget ⟨[47, 114], 0⟩ (textRounds file) fuel ⟨blockwisePut, textServer, none⟩

theorem blockwisePut_fresh : blockwisePut.Fresh := ⟨rfl, rfl, rfl, rfl, rfl, 0, by decide, rfl⟩

theorem textRounds_fit (file : List UInt8) {n : Nat} (few : n ≤ 0xfffff) :
    ClientFits .little (fun _ => false) blockwisePut (textRounds file n).run n :=
  ⟨rfl, (by decide : 1 + 1 < ecProtoMaxOptions), few⟩

/-- A block and a byte come through. -/
theorem textUpload_seventeenBytes : ∃ fuel done, textUpload (List.replicate 17 1) fuel = .ok (some done) ∧
    done.Complete ⟨[47, 114], 0⟩ (List.replicate 17 1) :=
  (upload_iff blockwisePut_fresh (by decide) rfl (rfl : ecRepGetRes textServer.fs _ = some emptyText) (by decide)).mpr
    ⟨rfl, fun few => absurd few (by decide),
      fun _ => ⟨by decide, by decide, rfl, fun _ few => textRounds_fit _ (Nat.le_trans few (by decide))⟩⟩

/-- The last one of two whole blocks is stored twice. -/
theorem textUpload_wholeBlocks :
    let file := List.replicate 16 1 ++ List.replicate 16 2
    (∃ fuel done, textUpload file fuel = .ok (some done) ∧ done.client.fail = false ∧
      done.stored.map EcRep.data = some (file ++ List.replicate 16 2)) ∧
    ¬ ∃ fuel done, textUpload file fuel = .ok (some done) ∧ done.Complete ⟨[47, 114], 0⟩ file := by
  constructor
  · exact ⟨3, _, rfl, rfl, by decide⟩
  · intro complete
    have blocks := (upload_blocks_iff blockwisePut_fresh (by decide) rfl
      (rfl : ecRepGetRes textServer.fs _ = some emptyText) (by decide)).mp complete
    exact blocks.2.2.1 (by decide)

end Webthings.Apps
