import ScatterDex.Contract.PrivateSettlement
import ScatterDex.Library.Bn254
import ScatterDex.Library.Groth16
import Mathlib.Data.Option.Basic

/-!
# The batch verifier

`BatchAuthorizeVerifier` checks two proofs of one circuit with five pairings. The curve is known to it through the precompiles, which decode coordinates, refuse those of no point, and hand coordinates back. `Curve` is that view of an abstract bilinear group; the contract then computes the batched equation of the library on whatever it decodes.
-/

namespace ScatterDex

open Bn254

/-- The base field modulus, `q_mod`. -/
def baseModulus : ℕ := 21888242871839275222246405745257275088696311157297823662689037894645226208583

/-- Coordinates of a point of the second group. -/
abbrev TwistCoordinates : Type := (ℕ × ℕ) × ℕ × ℕ

abbrev EncodedKey : Type := Groth16.VerifyingKey (ℕ × ℕ) TwistCoordinates

/-- The verifying key of `BatchAuthorizeVerifier`; its siblings for the larger tiers differ in these constants only. -/
def batchAuthorizeKey : EncodedKey where
  alpha := (14384235950119042070567818654293029140252137645950092982200714679054372372256,
      14075923080327348721385669700616374867289808503732072523040648403250897957648)
  beta := ((1618103450510739521020245476891711802836810401088853005485593396117986383843,
      21655532960701529153129077519508441025297202035621250212899765885768489397519),
    4723287139694702391024121862840241728712425624069410330204922501305415335416,
      1313449656396141369532788943395729775208866318295459447514040949756582166527)
  gamma := ((11559732032986387107991004021392285783925812861821192530917403151452391805634,
      10857046999023057135944570762232829481370756359578518086990519993285655852781),
    4082367875863433681332203403145435568316851327593401208105741076214120093531,
      8495653923123431417604973247489272438418190587263600148770280649306958101930)
  delta := ((15701008673681608240610964197433785919575532317160431444405787383582744302368,
      3868536275328828774463313630967930289475144707733131547973397579749763279632),
    11500108964867210111944385035186807935256984759528156275472048391541145189211,
      21008901696631490207570388095231878367720121228439053990424051177278926685063)
  constant := (17271318639758365988751047333980533436866891281854542627574538932935889651639,
      455930527351187065562187941098393262911498377877555145311893819759239536211)
  ic := [(2478090436571704305990343419565845231776817556799341820237966659560455991999,
      558242583547285323663332925080586355680112071411136725110526546805849047757),
    (21854619097328675295301671076848093304394804010274957679457223977207681269498,
      5117076589834480120279608590177848737415393490555210200943494056612082853334),
    (12723212527701216587930787385573535724307636606237521335161021938818085972068,
      4643673429825920963063046800356224262078202048315124528241517901278402884759),
    (3563628086599279385131913637486302735117863672034648978934369549287193498904,
      21516696166019681742377774419221782297776744830825923309485554914736772139380),
    (21455330800675831128236277146298574887141391389151150911683984544921186981918,
      5570092102336085329274180440753939763027914063716445604118121181490513381225),
    (13178819076808048066179232899490501664913954669523286905420309981489045793066,
      5996014969614642340470531787886933513961357441258066972040103552662601597021),
    (20658998451800980680449313588387221347456773207385064313128359413092630678072,
      15015335781961129643047331440539200390716835592791191544922506808643819604825),
    (20648750654329206608488535021391115217605754530118745230192955170391674542083,
      12942403275458414073969684884299376415418808506395495863917713425763749243435),
    (5955654604670641596412435228462233195593728228495546488277556108651704447726,
      17182492196012891578175710682555851692822677357813135698796598278566689506860),
    (4098551603435806625929733597208526884622727398357774812298937468262162815661,
      9587350036510458606680649179402686986542916643742259281780930172618077668323),
    (16648425024521535569450420288920279587837501810719116060267848031699377188891,
      9271295906151557848377947278594136327063701577645101792347815255510700631667),
    (11762317654452799094875061009465463787596436116132780585265031268567455726930,
      6916194015891621945222606665234448845138994694563556763402756021556560100000),
    (451119204183274792021357319331953533258169060998407629782113047343615884255,
      12926993795781318782413110537196419362596746198160738061297304963936209487256),
    (15606866427873846119223703605689211938676099115096699964802008460778136545867,
      1059908513637918196571928572902143127331032215105005172439623704128311847137),
    (3248919567500033832463102099253660655498565859394685343983030889302807437356,
      17133784651431266235152144641943458063199513208393110083700416326054664539259)]

/-- The points of the key lie on the curve, so the precompiles accept them. -/
theorem batchAuthorizeKey_onCurve : ∀ p ∈ batchAuthorizeKey.alpha :: batchAuthorizeKey.constant :: batchAuthorizeKey.ic,
    p.1 < baseModulus ∧ p.2 < baseModulus ∧ p.2 ^ 2 % baseModulus = (p.1 ^ 3 + 3) % baseModulus := by
  decide +kernel

section Precompiles

variable (G₁ G₂ G : Type) [AddCommGroup G₁] [Module Scalar G₁] [AddCommGroup G₂] [Module Scalar G₂]
  [AddCommGroup G] [Module Scalar G]

/-- A bilinear group behind the precompiles: what coordinates stand for, if anything. -/
structure Curve where
  pairing : G₁ →ₗ[Scalar] G₂ →ₗ[Scalar] G
  point : ℕ × ℕ → Option G₁
  coordinates : G₁ → ℕ × ℕ
  twistPoint : TwistCoordinates → Option G₂
  point_coordinates : ∀ g, point (coordinates g) = some g
  point_lt : ∀ p g, point p = some g → p.1 < baseModulus ∧ p.2 < baseModulus
  point_neg : ∀ p g, point p = some g → point (p.1, (baseModulus - p.2) % baseModulus) = some (-g)

end Precompiles

variable {G₁ G₂ G : Type} [AddCommGroup G₁] [Module Scalar G₁] [AddCommGroup G₂] [Module Scalar G₂]
  [AddCommGroup G] [Module Scalar G] [DecidableEq G]

/-- `mod(sub(q_mod, y), q_mod)` on words. -/
def negateOrdinate (y : ℕ) : ℕ := (baseModulus + 2 ^ 256 - y) % 2 ^ 256 % baseModulus

/-- The challenge made of a digest. -/
def batchChallenge (digest : ℕ) : ℕ :=
  if digest % modulus = 0 then 1 else digest % modulus

namespace Curve

variable (K : Curve G₁ G₂ G)

def ecMul (p : ℕ × ℕ) (s : ℕ) : Option (ℕ × ℕ) := do
  let g ← K.point p
  return K.coordinates ((s : Scalar) • g)

def ecAdd (p p' : ℕ × ℕ) : Option (ℕ × ℕ) := do
  let g ← K.point p
  let g' ← K.point p'
  return K.coordinates (g + g')

/-- The pairings of a list of pairs of points, added up. -/
def pairings : List ((ℕ × ℕ) × TwistCoordinates) → Option G
  | [] => some 0
  | (p, t) :: pairs => do
    let g ← K.point p
    let h ← K.twistPoint t
    let rest ← pairings pairs
    return K.pairing g h + rest

def ecPairing (pairs : List ((ℕ × ℕ) × TwistCoordinates)) : Option Bool := do
  let sum ← K.pairings pairs
  return decide (sum = 0)

/-- `g1_mulAccC`. -/
def g1MulAccC (acc p : ℕ × ℕ) (s : ℕ) : Option (ℕ × ℕ) := do
  let product ← K.ecMul p s
  K.ecAdd product acc

/-- `IC[0] + Σ pub[i] · IC[i+1]`. -/
def publicPoint (vk : EncodedKey) (pub : List ℕ) : Option (ℕ × ℕ) :=
  (pub.zip vk.ic).foldlM (fun acc (s, p) => K.g1MulAccC acc p s) vk.constant

/-- `doBatchVerify`, once the calldata is hashed; a `leave` is `none`. -/
def batchCheck (vk : EncodedKey) (digest : ℕ) (π₁ : Groth16Proof) (pub₁ : List ℕ) (π₂ : Groth16Proof)
    (pub₂ : List ℕ) : Option Bool := do
  guard (∀ s ∈ pub₁, s < modulus)
  guard (∀ s ∈ pub₂, s < modulus)
  guard (π₁.proofA.2 < baseModulus)
  let challenge := batchChallenge digest
  let l₁ ← K.publicPoint vk pub₁
  let l₂ ← K.publicPoint vk pub₂
  let rL₂ ← K.ecMul l₂ challenge
  let lCombined ← K.ecAdd l₁ rL₂
  let rC₂ ← K.ecMul π₂.proofC challenge
  let cCombined ← K.ecAdd π₁.proofC rC₂
  let rA₂ ← K.ecMul π₂.proofA challenge
  let alphaCombined ← K.ecMul vk.alpha ((1 + challenge) % modulus)
  K.ecPairing
    [((π₁.proofA.1, negateOrdinate π₁.proofA.2), π₁.proofB),
      ((rA₂.1, negateOrdinate rA₂.2), π₂.proofB),
      (lCombined, vk.gamma),
      (cCombined, vk.delta),
      (alphaCombined, vk.beta)]

def doBatchVerify (vk : EncodedKey) (digest : ℕ) (π₁ : Groth16Proof) (pub₁ : List ℕ) (π₂ : Groth16Proof)
    (pub₂ : List ℕ) : Bool :=
  (K.batchCheck vk digest π₁ pub₁ π₂ pub₂).getD false

end Curve

/-- The words of a proof in calldata. -/
def Groth16Proof.words (π : Groth16Proof) : List ℕ :=
  [π.proofA.1, π.proofA.2, π.proofB.1.1, π.proofB.1.2, π.proofB.2.1, π.proofB.2.2, π.proofC.1, π.proofC.2]

/-- `verifyBatchProof`: the digest is that of the calldata, the verifier's own address and the chain. -/
def Curve.verifyBatchProof (K : Curve G₁ G₂ G) (vk : EncodedKey) (keccak256 : List ℕ → ℕ) (self : Address) (chainid : ℕ)
    (π₁ : Groth16Proof) (pub₁ : List ℕ) (π₂ : Groth16Proof) (pub₂ : List ℕ) : Bool :=
  K.doBatchVerify vk (keccak256 (π₁.words ++ pub₁ ++ π₂.words ++ pub₂ ++ [self.toNat, chainid])) π₁ pub₁ π₂ pub₂

end ScatterDex
