import ScatterDex.Circuit.Completeness
import ScatterDex.Protocol.EscrowNotes

/-!
# What a settlement owes its users

The circuit bounds what a side receives from below, the contract bounds what leaves the pool and what the relayer takes from above. Together they hold for every pair of orders, whatever their sizes.
-/

namespace ScatterDex

open Bn254 Fallible PrivateSettlement

/-- One side of a trade against its counterparty. Its claims and its fee are covered by what the counterparty sells, its group holds the minimum it signed, and its fee stays below its bound. -/
structure SideProtected (w' : World) (side counterparty : AuthorizeProof) (fee : ℕ) : Prop where
  sameToken : side.buyToken = counterparty.sellToken
  covered : side.totalLocked.toNat + fee ≤ counterparty.sellAmount.toNat
  group : w'.settlement.claimsGroups side.claimsRoot = ⟨side.totalLocked.toNat, 0, side.buyToken, side.tier⟩
  minReceive : side.buyAmount.toNat * (10000 - side.maxFee.toNat) ≤ side.totalLocked.toNat * 10000
  feeBound : fee ≤ side.buyAmount.toNat * side.maxFee.toNat / 10000

/-- A matched trade: both sides are protected, the pool makes exactly these payments, and a fee that goes through a vault is credited to the relayer of its side. -/
structure TradeProtected (D : Deployment) (w : World) (p : SettleAuthParams) (w' : World) : Prop where
  maker : SideProtected w' p.maker p.taker p.feeTokenMaker.toNat
  taker : SideProtected w' p.taker p.maker p.feeTokenTaker.toNat
  paid : Steps (Paid D D.pool)
    [⟨p.maker.buyToken, D.settlement, p.maker.totalLocked.toNat⟩,
      ⟨p.taker.buyToken, D.settlement, p.taker.totalLocked.toNat⟩,
      ⟨p.maker.buyToken, w.settlement.feeTarget p.maker.relayer, p.feeTokenMaker.toNat⟩,
      ⟨p.taker.buyToken, w.settlement.feeTarget p.taker.relayer, p.feeTokenTaker.toNat⟩] w.books w'.books
  leaves : ∀ token, w.books.balanceOf token D.pool ≤ w'.books.balanceOf token D.pool +
    ((if p.maker.sellToken = token then p.maker.sellAmount.toNat else 0) +
      if p.taker.sellToken = token then p.taker.sellAmount.toNat else 0)
  credited : ∀ vault relayer token, (w'.vaults vault).balances relayer token =
    (w.vaults vault).balances relayer token +
      w.settlement.vaultCredit ⟨p.maker.buyToken, p.maker.relayer, p.feeTokenMaker.toNat⟩ vault relayer token +
      w.settlement.vaultCredit ⟨p.taker.buyToken, p.taker.relayer, p.feeTokenTaker.toNat⟩ vault relayer token

variable {C : Circomlib} {D : Deployment} {env : Env} {w w' : World}

/-- Two groups registered one after the other are both there, since a real token occupies its root. -/
theorem registered_pair {first second : Registration} {groups groups' : ℕ → ClaimsGroup} (htoken : first.token ≠ 0)
    (hregistered : Steps Registered [first, second] groups groups') :
    groups' first.root = ⟨first.totalLocked, 0, first.token, first.tier⟩ ∧
      groups' second.root = ⟨second.totalLocked, 0, second.token, second.tier⟩ := by
  obtain ⟨groups₁, ⟨-, rfl⟩, groups₂, ⟨hfree, rfl⟩, rfl⟩ := hregistered
  have hroots : first.root ≠ second.root := by
    intro heq
    rw [← heq, Function.update_self] at hfree
    exact htoken hfree
  exact ⟨by rw [Function.update_of_ne hroots, Function.update_self], Function.update_self _ _ _⟩

theorem ite_add_le {c : Prop} [Decidable c] {a b bound : ℕ} (hle : a + b ≤ bound) :
    (if c then a else 0) + (if c then b else 0) ≤ if c then bound else 0 := by
  by_cases hc : c
  · simpa only [if_pos hc] using hle
  · simp only [if_neg hc, Nat.add_zero, le_refl]

theorem settleAuth_protected {p : SettleAuthParams} (hwhitelist : w.settlement.whitelistedTokens 0 = false)
    (hmaker : p.maker.Backed C D.poseidon) (htaker : p.taker.Backed C D.poseidon)
    (hsettle : settleAuth D env w p = .ok w') : TradeProtected D w p w' := by
  obtain ⟨hcross, -, hsettles, hcredited⟩ := settleAuth_ok hsettle
  obtain ⟨groups, hregistered, hsettlement⟩ := hsettles.settlement
  have hbuy : p.maker.buyToken ≠ 0 := by
    intro hzero
    have hlisted := hcross.takerWhitelisted
    rw [hcross.takerSells, hzero, hwhitelist] at hlisted
    exact absurd hlisted Bool.false_ne_true
  obtain ⟨hmakerGroup, htakerGroup⟩ := registered_pair hbuy hregistered
  have hgroups : w'.settlement.claimsGroups = groups := by rw [hsettlement]
  have hmakerFee : p.feeTokenMaker.toNat ≤ p.maker.buyAmount.toNat * p.maker.maxFee.toNat / 10000 :=
    (Nat.le_div_iff_mul_le (by decide)).mpr hcross.makerFee
  have htakerFee : p.feeTokenTaker.toNat ≤ p.taker.buyAmount.toNat * p.taker.maxFee.toNat / 10000 :=
    (Nat.le_div_iff_mul_le (by decide)).mpr hcross.takerFee
  obtain ⟨makerSignals, hmaker⟩ := hmaker
  obtain ⟨takerSignals, htaker⟩ := htaker
  refine ⟨⟨hcross.takerSells.symm, hcross.makerCap, hgroups ▸ hmakerGroup, hmaker.min_receive, hmakerFee⟩,
    ⟨hcross.makerSells.symm, hcross.takerCap, hgroups ▸ htakerGroup, htaker.min_receive, htakerFee⟩,
    hsettles.books, fun token => ?_, hcredited⟩
  have hpool := Paid.payer_le hsettles.books token
  have hmakerCap := ite_add_le (c := p.taker.sellToken = token) hcross.makerCap
  have htakerCap := ite_add_le (c := p.taker.buyToken = token) hcross.takerCap
  simp only [SettleAuthParams.payments, outflow_cons, outflow_nil, hcross.makerSells, ← hcross.takerSells]
    at hpool ⊢
  omega

/-- What a scatter guarantees: the fee stays below its bound, and the claims and the fee below what is spent. -/
structure ScatterProtected (p : ScatterDirectAuthParams) : Prop where
  feeBound : p.fee.toNat ≤ p.proof.sellAmount.toNat * p.proof.maxFee.toNat / 10000
  covered : p.proof.totalLocked.toNat + p.fee.toNat ≤ p.proof.sellAmount.toNat

/-- **User protection.** In any state the system reaches, a settlement of two backed proofs protects both of its sides, and a scatter its user. -/
theorem user_protection (hdeployed : Deployed D w) (calls : List Call) :
    (∀ env p w', p.maker.Backed C D.poseidon → p.taker.Backed C D.poseidon →
      settleAuth D env (w.after D calls) p = .ok w' → TradeProtected D (w.after D calls) p w') ∧
    ∀ env p w', scatterDirectAuth D env (w.after D calls) p = .ok w' → ScatterProtected p := by
  have hstart : w.settlement.whitelistedTokens 0 = false := hdeployed.settlement_spec.2.2.2.2 0
  have hwhitelist := whitelist_configuration.run hstart (run_accepted D w calls)
  refine ⟨fun env p w' hmaker htaker hsettle => settleAuth_protected hwhitelist hmaker htaker hsettle,
    fun env p w' hscatter => ?_⟩
  obtain ⟨hvalid, -⟩ := scatterDirectAuth_ok hscatter
  exact ⟨(Nat.le_div_iff_mul_le (by decide)).mpr hvalid.feeCap, hvalid.claimsCap⟩

/-! ### A trade -/

/-- The rows of a walk along the left edge of the tree, from a level up: every sibling is empty. -/
def edgeRows : ℕ → List Scalar → List (List Scalar × Scalar)
  | level, node :: above :: nodes => ([node, emptyNode level], above) :: edgeRows (level + 1) (above :: nodes)
  | _, _ => []

/-- The left edge of the tree once the maker has deposited. -/
def makerEdge : List Scalar :=
  [0x3007550b9602aec5a6ee2a5fb5600f58acf92d0f3ec1c383564eed965ffcd0c5,
    0x1cb580a344aba55841edc4a30cb619bc8b008119dd129aa487980b2fe96d995c,
    0x2d3ffe4a37ab10e97842266c864e347734f1a0d59684fb043f4d3d6ba276ad5f,
    0x2e6624837847af5318bbb26b65c9f0a683448743ce6530c1a4f8aed1cab64d21,
    0x2b5a3add5bae93b710a3044605d61375aac4b07274bd53df74cd5774df05132d,
    0x2d36b038a18c2e321f18398e80a3330ecae1c0d6b0d4b3cf94b94ec37806f5f0,
    0x1bcbcf6bc7354b93c94fbf20ff196509451e8edbbcf0c1b428e24401ce8f54eb,
    0xd762281858ea6377a424869632d888ce6435462c656a4055b3f9757b8cca38e,
    0x14852ad564db8e7d235a240349c209f698a8778f809abb5f8b71bd4200fdac96,
    0x2be261991772990180bf355a0b809e7b98bf45289cf86e7ac039998363f66790,
    0xaef712d8cc84c7bc03d814bf5eb0014c7bb73816e088b4b561dc1bc837527aa,
    0x138ad8ba5591f2bcf96f2c6c524b8aca0d38d17e4b21df375d5a0f4ff6467f4d,
    0x1f110b11d4127e7ea74577795e73ae4310bedc8d7024038d0bed7903c802ac18,
    0x4a26d0414dff2f883ea476687097ca801c68edd7b6212818358e1a55988e5e9,
    0x132696401de49e034101d5ba1b4b499f733f5d7656f37218797325f9f6d8ee49,
    0x1700f8f77a1a513c2201b7f89684100136ecaef8af6bcef085c209901f2254d2,
    0x13ba4d74be75548712de7e798083600a3426d4bfe07498dc6f11cc3cc4e7f9eb,
    0x2861ecec4ed1454a2da81cdce8b7876ceefcce68fb8cf2ca1102169310ff8d00,
    0x19f462c06be6e57e62b8bfd9f6e0a6941ea22a3801450eada15b5a0c9408d6d5,
    0x1fdd2f01e323cc9eeee4721730541c9da18d06a940bf0fa9cb3a449498bf4781,
    0x1a3dcdf2e3483db72aa4f6364a150e0c8c42acc1743d92d6530161b5a541f4db]

/-- The left edge above the leaves once the taker has deposited too. -/
def depositsEdge : List Scalar :=
  [0x29cae4c4fd81d9d92cebc10aa2cdc44b0a61ac14b9eccaf686ae45fcb19a6188,
    0x2eaf808d5a95bebe0ba2820bebe7bcde50dadbd6e73e79e3d830d1dca9594048,
    0xb2c524fdbbac07c6018e47f03735a2c13cc0f93066f353d6ac599ce6483f02f,
    0x1d37d9698e8e9ababde0f8f419a6ef9f233f9330e03f14609e56660c2b0ebca6,
    0x23e9de5c6ebb33d47448539e944ae7e0bcc0f74dec2818b37129f39c426c8bf,
    0x9bd4eae52c20c3940ef7eb4d83c061eaa1cc3734b76fefccf39a56a41c3bffb,
    0x2cbb0f369da74e37d5cda7a513e2d25ab9ee863a44a1cc10a492b0228ac990fd,
    0x198f34f4da8801785ad672d0a97399117fa3e978c3aa1bb7a66691ff0a120d04,
    0x86bdd45ae4a214478d80498d3cb553c931b4383ab8f98b6d0e0f22b6658199e,
    0xf2eae482ecfad45cf1878897d1870348a26be4d0a616bc609e0c4166ad5c5ba,
    0x65c8ad39caf3c8b3a795f9ee69121ac956d92d4b234540ef8a397d5e37cf09f,
    0x160817ba9e7a29c3ed40085dea1b3832ab994b3432a301a4b24beaa7d390758f,
    0xd6cbf23eef68948a22e168de0f904396f28750e159e4b9a811e9495e1a24aea,
    0x19309c1ce31147e1494d1aa2b1b74c225e9ea75e8779b6e8f6ea97be7368155e,
    0x2119e91029316b0ed1088325ac3cef2ea75f1b7d244913fc021d23cbd7f1a30c,
    0x15cc36a11f3c41a1a26ec04b9454926d525bb13c1271ae9d5cbfb3419a6c352b,
    0x1dfe4dbb372045f99fcf1506f5e79db7dc63181b1190bc4e8242cc67ec67c2cf,
    0x86c6ac308b7fa2812f311e35091826a90e844ccbd1381ef15e582609f555e9c,
    0x214172dafc3d36c8a8909de99eceec9385c7a65391575eababd194fa137f5684,
    0x1b6f8ab0f9fdcddfc125f03c391146419c645e201bbc8210a800f7c68d49cdad]

/-- The same two levels up, with the residual of the maker. -/
def residualEdge : List Scalar :=
  [0xc3150fcc5e22d30788f4773283b2aad3ec9a5f4613e2b063b556a9a0cc6a6b1,
    0x1343e911075522521f491ff2006208297ed96836c23ab71efd94a27d3c5ea545,
    0xc06b5315985a57754a8e557956d0fe89efd963bf5b25cfa8a33c0738eeff8f5,
    0xb96438a389e89bbe3cc805c7538a3440f1460b422dfa2c884eb6be95d161c24,
    0x8627b5531624a733d2bc474e8a46a7051d2f7a0fa6a7d8cf4cdc095cefa35b6,
    0x608d102f7cc7046e77d5c7cdf51f89f72e261c68e998a9dd6da3675eee4643d,
    0x8f0d685e861a79f535ef53b7df0094db8850b45cc2be56087cc91e82998ff37,
    0x1ec366760c1f2b0a76d4cf42b010049e66525831085a5dd751eb1e8ba673d5b8,
    0x7f61ee027ff913fa8739738c2e4bdfd2307f2860d9d271871852843472dce72,
    0x1bdf100e51fe6db79627baa0a6ff6d39fa91b38da132d4b235bc1a42d05446f2,
    0x6c0405b18797d2df5a87d58161b07532d88d0e4e2e8703aa72195f0a1190d03,
    0x252ef37b5e46778621da35d13a6c9956e8e8a7a850c9d72e8861cd5f86065a12,
    0x2c9d04ad4af1f529886ca518b7bd7dbff120135188769c53e96ed9d3fd548d0f,
    0x23f233ce2bcdb1a668a6b7d8f360462c316e2f1f9c894ba917162dd17be36385,
    0x21e629bf75fb5d0a53ac1743b5805877c38948e1be5cb68cc6823c01d4acde59,
    0x29d9ece614153ad28c108bd73cde64f183f813b8862626007bb1ef1c503d6b46,
    0x2e36d2d65fed6364249fb19a5d87d2f35a79737ef0d0f4f08bf8c58b966dd2f1,
    0x28769ef129d590ec613a2d1dc0dcf2b16d4f179939c3a2c1f2af94e5f14ddddd,
    0x273b2ae166cfd7cdf93badffe92f759ae88a06a9551495e49b0cec35de505c45]

/-- The left edge above the leaves when the maker's leaf is there twice. -/
def rotatedEdge : List Scalar :=
  [0xf7767f48f6119f8cd43ac8ee75e1f5e53bcdc529fbb43aaee08da4c9f3d18bb,
    0x9b73a36faf5e1493d669c406184274d935fd674280e181e47392f24a0a7b3a2,
    0xbaccb91c8694ee2bd5933e05189086efb5a8e61aca10ad5fb61b9fc463f3441,
    0xe0766d4a8babf9e9fc492140cab0ad1d152b624a39b54e6c19a19fc27d946bd,
    0x1294282e580134983e633cdfba3f66b96938460d3713145f83adca475bd791dc,
    0xc47080796dd324e52776597079e53ed269e83073a799b49b0081e0634db5c45,
    0x2e72e383a2d452200d41b9fd35ed53f4d3c159a6d27adb79d7d38ceaeef1dbde,
    0x23afce81703e41ffcefd3045afd65b5e0b871aa1837174b84f6700e309d767ab,
    0x212e8ca7c900e375c08856c2babcc8799339abc7b5aad954c7e0d432d3e550f,
    0x1ad259273af042f40af73da47cb1eb48dc75af5928a8f3ab2c19282121b95e89,
    0x2037cccec05e183edc9df068dba49691df519c1ba62b1bfd8237b2ba8ea1fde,
    0x2e3a65823e28c5547142468d09f56579dbbc8a89c8a2e8c51d850df465bef82e,
    0x2a9579d7351e5f468c5d2c17bf3ff339f95916f443e154860cef3f80802758b0,
    0x240bcc626c4d4b0514ab9accf819c9a1a9312fa4232fbc1fd92c6afa33864484,
    0x242e4271d343596dc1c4fcd452b1bd4475df55e4187ac589d5b21e205f81e0bb,
    0x21bde69abd632b63c1025b75631b94c31e80061635ca5fbc29389d424c8dff46,
    0x1db213d5b4d63e017269e1879504a1eb5d450f22615d9adba5ec6fe3adc152be,
    0x2eb28dbb97953f3c3786e4ee132738545403b766d22c841a5d911c2e8128e1b1,
    0x53d7c898a5ca3fc2dc85be1db418d00197aed182a06548a5f43502b73b43167,
    0x1fe7f3ae75b4e229d6ed3cb9893c123d3965fb24ff1560d6e9120e0c929a67a4]

/-- What is hashed in a trade: the deposits, two orders of two claims, the residual, and a cancelled deposit. -/
def tradeTable : List (List Scalar × Scalar) :=
  [([3, 1001, 13, 1000, 2001, 0x1bf0df2dafb6d7417853e4cabbed99cfd1f63bf341767c320eb4251c14424fc0,
      0x65ac093413a4c58960bcc5d5e258ae77c6e1eb0307f9e0d964170fc1a7f6e09],
      0x3007550b9602aec5a6ee2a5fb5600f58acf92d0f3ec1c383564eed965ffcd0c5),
    ([0, 1001, 2001],
      0x1677c7dfe33d79c80ec60fbdf132d8564a7d55975d0637c9ba30a24f55a1eb69),
    ([3, 1002, 14, 320, 2002, 0x757f655874d726c704bd49947de527b0aec24f76b4a0f26cc961442e91c8ea7,
      0x1e462f65041a5bf04cc8940f9621e2d395c175a83a67f886824a66c62514e91d],
      0x2b5a50aa53d4b4082fa1bf423abcdbdd6d30b1cd81dcc7f9f39cda493a5c242b),
    ([0, 1002, 2002],
      0x5f23a06510d3ffbeebf9728cecb82a8caa1c78e3a2d71520e09c3f10cabbd9e),
    ([0x3007550b9602aec5a6ee2a5fb5600f58acf92d0f3ec1c383564eed965ffcd0c5,
      0x2b5a50aa53d4b4082fa1bf423abcdbdd6d30b1cd81dcc7f9f39cda493a5c242b],
      0x29cae4c4fd81d9d92cebc10aa2cdc44b0a61ac14b9eccaf686ae45fcb19a6188),
    ([0, 0, 0, 0, 0],
      0x2066be41bebe6caf7e079360abe14fbf9118c62eabc42e2fe75e342b160a95bc),
    ([1, 1001, 7],
      0x1ff51643963e4cb04e177accbed5d22e95b3e7291307938c0089cb934bcf4b77),
    ([3, 1001, 13, 600, 3001, 0x1bf0df2dafb6d7417853e4cabbed99cfd1f63bf341767c320eb4251c14424fc0,
      0x65ac093413a4c58960bcc5d5e258ae77c6e1eb0307f9e0d964170fc1a7f6e09],
      0x8195e58347b5b69d7356398dbf80628223b9272445ac932b33656f5cb089114),
    ([5001, 65, 14, 200, 50],
      0x4d1d9910b7b29ab1398a686c65f99c3be3d237bd9aedf9a6ea26543301292e2),
    ([5002, 66, 14, 110, 60],
      0x235e9adab9d9afe502fbf47e07dbcc43331bdf33e31aada6fe57ba736ce6244d),
    ([0x4d1d9910b7b29ab1398a686c65f99c3be3d237bd9aedf9a6ea26543301292e2,
      0x235e9adab9d9afe502fbf47e07dbcc43331bdf33e31aada6fe57ba736ce6244d],
      0x3619de1bd321863a6728f3da90525c1fb6a13b5f0aac581e2ad23f5fad91128),
    ([0x3619de1bd321863a6728f3da90525c1fb6a13b5f0aac581e2ad23f5fad91128,
      0x2098f5fb9e239eab3ceac3f27b81e481dc3124d55ffed523a839ee8446b64864],
      0x215b8a3fef2b2e82f62916d6cf74a04b110e306c48c1cacb40ea83b7268e765),
    ([0x215b8a3fef2b2e82f62916d6cf74a04b110e306c48c1cacb40ea83b7268e765,
      0x1069673dcdb12263df301a6ff584a7ec261a44cb9dc68df067a4774460b1f1e1],
      0x21d603a6dc3ee78a28d575af46c8993511c937374e0d6b5c08fec19d8f109def),
    ([0x21d603a6dc3ee78a28d575af46c8993511c937374e0d6b5c08fec19d8f109def,
      0x18f43331537ee2af2e3d758d50f72106467c6eea50371dd528d57eb2b856d238],
      0x102d1c68273fb3fe7aed7dac77d38afa12dc080f13ccc99f0c918ef2fefd689e),
    ([13, 14, 400, 300, 100, 500, 7, 0x102d1c68273fb3fe7aed7dac77d38afa12dc080f13ccc99f0c918ef2fefd689e, 12],
      0xe29729714e5a7f3981f4581090bdfd59a01f568bcd839e3af9b3faf49461350),
    ([0x1bf0df2dafb6d7417853e4cabbed99cfd1f63bf341767c320eb4251c14424fc0,
      0x65ac093413a4c58960bcc5d5e258ae77c6e1eb0307f9e0d964170fc1a7f6e09,
      0x1677c7dfe33d79c80ec60fbdf132d8564a7d55975d0637c9ba30a24f55a1eb69],
      0x9920a55b5a982b15db3ea7ea6170b6fb5914ec759c60094244e37185f663b46),
    ([2, 5001, 0, 0x102d1c68273fb3fe7aed7dac77d38afa12dc080f13ccc99f0c918ef2fefd689e],
      0x2e1b091efadd8ad5ea0507794171f5ceb066227ddc9c50edcb70404fd24913e7),
    ([2, 5002, 1, 0x102d1c68273fb3fe7aed7dac77d38afa12dc080f13ccc99f0c918ef2fefd689e],
      0xc2f8da26befb3e6ad0b28abd356ba00be8a5c537722820acdda65cafb5ded4),
    ([1, 1002, 8],
      0x172dcfd431aaf74f77fa0486bf199536af2259adcd2ca81649af4dbc78f5c7d2),
    ([3, 1002, 14, 0, 3002, 0x757f655874d726c704bd49947de527b0aec24f76b4a0f26cc961442e91c8ea7,
      0x1e462f65041a5bf04cc8940f9621e2d395c175a83a67f886824a66c62514e91d],
      0x18467bbc400052439221068265668bd4f91210a9a28f039fb5361b4134d7bf21),
    ([5003, 67, 13, 300, 50],
      0x27c31ae2a2fa73e44822129944ba71a4b48ef8a4ddcfe921451d3fa25d817684),
    ([5004, 0, 13, 90, 50],
      0x8c79fa37a98d887209fc9b1b3bd0aaa68340f4a3d32623fbcb3d74e4911101b),
    ([0x27c31ae2a2fa73e44822129944ba71a4b48ef8a4ddcfe921451d3fa25d817684,
      0x8c79fa37a98d887209fc9b1b3bd0aaa68340f4a3d32623fbcb3d74e4911101b],
      0xa3afc650913beabb8c12791449288cddd7a473437028a8f30453f3028baac43),
    ([0xa3afc650913beabb8c12791449288cddd7a473437028a8f30453f3028baac43,
      0x2098f5fb9e239eab3ceac3f27b81e481dc3124d55ffed523a839ee8446b64864],
      0x1e45165ce190990b555d6d9b25ca30df6105d32d4b00e2fefbf9803dcd84f4a8),
    ([0x1e45165ce190990b555d6d9b25ca30df6105d32d4b00e2fefbf9803dcd84f4a8,
      0x1069673dcdb12263df301a6ff584a7ec261a44cb9dc68df067a4774460b1f1e1],
      0x128c8d06bf139cde6fa18b62fd84f098aa08743e1ee3ccb1b24569b548ebbd49),
    ([0x128c8d06bf139cde6fa18b62fd84f098aa08743e1ee3ccb1b24569b548ebbd49,
      0x18f43331537ee2af2e3d758d50f72106467c6eea50371dd528d57eb2b856d238],
      0x74762efc0b4e998cd8575d8be1993855d59958b2d1c295c80587120a2dc0dad),
    ([14, 13, 320, 380, 100, 500, 8, 0x74762efc0b4e998cd8575d8be1993855d59958b2d1c295c80587120a2dc0dad, 12],
      0xd9e7f4a88693a9629c2a4e28d35c6bec6ac24574256ad57a3adfabc9c527f83),
    ([0x757f655874d726c704bd49947de527b0aec24f76b4a0f26cc961442e91c8ea7,
      0x1e462f65041a5bf04cc8940f9621e2d395c175a83a67f886824a66c62514e91d,
      0x5f23a06510d3ffbeebf9728cecb82a8caa1c78e3a2d71520e09c3f10cabbd9e],
      0x2d17c96a369891f510947f266a333c2d85f3074122e44196226fef432f18e4),
    ([2, 5003, 0, 0x74762efc0b4e998cd8575d8be1993855d59958b2d1c295c80587120a2dc0dad],
      0x262036c69c92edc28fb2fd503dee7b1afd9d43a6ae142c14d8f28d4e27f031a5),
    ([2, 5004, 1, 0x74762efc0b4e998cd8575d8be1993855d59958b2d1c295c80587120a2dc0dad],
      0x60ff7895c599b8921b9145cb99c3d4d61d624e951cb94501e98497c1ec607e9),
    ([0x8195e58347b5b69d7356398dbf80628223b9272445ac932b33656f5cb089114, 0],
      0x9c957035434c0c5fce301146ddba8a971cc28cf499c1edf45592c0a45a63e03),
    ([0x29cae4c4fd81d9d92cebc10aa2cdc44b0a61ac14b9eccaf686ae45fcb19a6188,
      0x9c957035434c0c5fce301146ddba8a971cc28cf499c1edf45592c0a45a63e03],
      0xc3150fcc5e22d30788f4773283b2aad3ec9a5f4613e2b063b556a9a0cc6a6b1),
    ([1, 1001, 9],
      0x2c27808853b20f3bc5db17e9d17e29b81f617b994c46b049d18352e205cd83c3),
    ([0x2c27808853b20f3bc5db17e9d17e29b81f617b994c46b049d18352e205cd83c3, 33],
      0x1c2a6499f8d3182732c38dcb64d7c3e46c90476e37b0e77202a3a501209f0435),
    ([0x3007550b9602aec5a6ee2a5fb5600f58acf92d0f3ec1c383564eed965ffcd0c5,
      0x3007550b9602aec5a6ee2a5fb5600f58acf92d0f3ec1c383564eed965ffcd0c5],
      0xf7767f48f6119f8cd43ac8ee75e1f5e53bcdc529fbb43aaee08da4c9f3d18bb)] ++
  ((List.range 19).map fun level => ([emptyNode level, emptyNode level], emptyNode (level + 1))) ++
  [([emptyNode 19, emptyNode 19],
      0x2134e76ac5d21aab186c2be1dd8f84ee880a1e46eaf712f9d371b6df22191f3e)] ++
  edgeRows 0 makerEdge ++ edgeRows 1 depositsEdge ++ edgeRows 2 residualEdge ++ edgeRows 1 rotatedEdge

def tradePoseidon : Poseidon := .ofTable tradeTable (by decide +kernel) (by decide +kernel)

instance : DecidablePred (· ∈ tradePoseidon.asked) := fun xs =>
  inferInstanceAs (Decidable ((tradeTable.lookup xs).isSome = true))

/-- Sell 400 of token 13 out of 1000, for at least 300 of token 14 less one percent. -/
def makerOrder : Circuit.AuthorizeSignals where
  pubKeyBind := 0x9920a55b5a982b15db3ea7ea6170b6fb5914ec759c60094244e37185f663b46
  commitmentRoot := 0x1b6f8ab0f9fdcddfc125f03c391146419c645e201bbc8210a800f7c68d49cdad
  nullifier := 0x1677c7dfe33d79c80ec60fbdf132d8564a7d55975d0637c9ba30a24f55a1eb69
  nonceNullifier := 0x1ff51643963e4cb04e177accbed5d22e95b3e7291307938c0089cb934bcf4b77
  newCommitment := 0x8195e58347b5b69d7356398dbf80628223b9272445ac932b33656f5cb089114
  sellToken := 13
  buyToken := 14
  sellAmount := 400
  buyAmount := 300
  maxFee := 100
  expiry := 500
  claimsRoot := 0x102d1c68273fb3fe7aed7dac77d38afa12dc080f13ccc99f0c918ef2fefd689e
  totalLocked := 310
  relayer := 12
  orderHash := 0xe29729714e5a7f3981f4581090bdfd59a01f568bcd839e3af9b3faf49461350
  secret := 1001
  balance := 1000
  salt := 2001
  path := fun i => if i = 0 then 0x2b5a50aa53d4b4082fa1bf423abcdbdd6d30b1cd81dcc7f9f39cda493a5c242b else emptyNode i
  pathIdx := fun _ => 0
  nonce := 7
  newSalt := 3001
  pubKeyAx := 0x1bf0df2dafb6d7417853e4cabbed99cfd1f63bf341767c320eb4251c14424fc0
  pubKeyAy := 0x65ac093413a4c58960bcc5d5e258ae77c6e1eb0307f9e0d964170fc1a7f6e09
  sigS := 0x19cd9883b298b441e0bd5288f83974fcdd3b5d0d49639d623f41ff2d5b44bba
  sigR8x := 0x85ed469c9a9f102b6d4f6f909b8ceaf6ca49b39759ac2e0feb7e0aada8b7111
  sigR8y := 0x245e25ab2bd42f0280a5ade750828dd6868f5225ae798d6b51c676f519c8f4e8
  claimSecrets := fun i => [5001, 5002].getD i 0
  claimRecipients := fun i => [65, 66].getD i 0
  claimTokens := fun i => [14, 14].getD i 0
  claimAmounts := fun i => [200, 110].getD i 0
  claimReleaseTimes := fun i => [50, 60].getD i 0
  claimCount := 2
  newBalance := 0
  lockedScaled := 0
  minReceiveScaled := 0
  computedLeaves := fun _ => 0
  claimUsed := fun _ => 0
  amountAcc := fun _ => 0
  leaves := fun _ => 0

/-- Sell 320 of token 14, a whole note, for at least 380 of token 13 less one percent. -/
def takerOrder : Circuit.AuthorizeSignals where
  pubKeyBind := 0x2d17c96a369891f510947f266a333c2d85f3074122e44196226fef432f18e4
  commitmentRoot := 0x1b6f8ab0f9fdcddfc125f03c391146419c645e201bbc8210a800f7c68d49cdad
  nullifier := 0x5f23a06510d3ffbeebf9728cecb82a8caa1c78e3a2d71520e09c3f10cabbd9e
  nonceNullifier := 0x172dcfd431aaf74f77fa0486bf199536af2259adcd2ca81649af4dbc78f5c7d2
  newCommitment := 0
  sellToken := 14
  buyToken := 13
  sellAmount := 320
  buyAmount := 380
  maxFee := 100
  expiry := 500
  claimsRoot := 0x74762efc0b4e998cd8575d8be1993855d59958b2d1c295c80587120a2dc0dad
  totalLocked := 390
  relayer := 12
  orderHash := 0xd9e7f4a88693a9629c2a4e28d35c6bec6ac24574256ad57a3adfabc9c527f83
  secret := 1002
  balance := 320
  salt := 2002
  path := fun i => if i = 0 then 0x3007550b9602aec5a6ee2a5fb5600f58acf92d0f3ec1c383564eed965ffcd0c5 else emptyNode i
  pathIdx := fun i => if i = 0 then 1 else 0
  nonce := 8
  newSalt := 3002
  pubKeyAx := 0x757f655874d726c704bd49947de527b0aec24f76b4a0f26cc961442e91c8ea7
  pubKeyAy := 0x1e462f65041a5bf04cc8940f9621e2d395c175a83a67f886824a66c62514e91d
  sigS := 0x10ed743cc569d80da953a9fc3a1aaa98fc0dd8da2989e83481aa6ac444f87ab
  sigR8x := 0x2332011090130807bcd9a204354a459873e1ee0873a362d97fc2ccc1f2c5b588
  sigR8y := 0x3a37a8623ff0aa6639f53155bee484c982f5caf0b298328b03da1e58b9a542e
  claimSecrets := fun i => [5003, 5004].getD i 0
  claimRecipients := fun i => [67, 0].getD i 0
  claimTokens := fun i => [13, 13].getD i 0
  claimAmounts := fun i => [300, 90].getD i 0
  claimReleaseTimes := fun i => [50, 50].getD i 0
  claimCount := 2
  newBalance := 0
  lockedScaled := 0
  minReceiveScaled := 0
  computedLeaves := fun _ => 0
  claimUsed := fun _ => 0
  amountAcc := fun _ => 0
  leaves := fun _ => 0

/-- The signatures in play: the two orders, and the maker's cancellation. -/
abbrev tradeCircomlib : Circomlib := .withSignatures
  [[makerOrder.pubKeyAx, makerOrder.pubKeyAy, makerOrder.sigS, makerOrder.sigR8x, makerOrder.sigR8y,
      makerOrder.orderHash],
    [takerOrder.pubKeyAx, takerOrder.pubKeyAy, takerOrder.sigS, takerOrder.sigR8x, takerOrder.sigR8y,
      takerOrder.orderHash],
    [makerOrder.pubKeyAx, makerOrder.pubKeyAy,
      0x4da309c954472dacd13c49d28be19392afd40c9d0ca3643faf65d153d058d3,
      0xdd7a6f079c8e7ab4daaf664521680b83f1d6aeb948426c112a8fcca3c57fcbe,
      0x1357d3bf4ddbdc1e34dfd0dbee74efb7dd247bb6d4a4df440458fd09b7a573e1,
      0x1c2a6499f8d3182732c38dcb64d7c3e46c90476e37b0e77202a3a501209f0435]]

theorem makerOrder_valid : Circuit.ValidOrder tradeCircomlib tradePoseidon 20 16 4 makerOrder := by
  constructor <;> decide +kernel

theorem takerOrder_valid : Circuit.ValidOrder tradeCircomlib tradePoseidon 20 16 4 takerOrder := by
  constructor <;> decide +kernel

/-- The calldata of an order. -/
def Circuit.AuthorizeSignals.calldata (s : Circuit.AuthorizeSignals) (tier : BitVec 8) : AuthorizeProof where
  proof := .zero
  pubKeyBind := s.pubKeyBind.val
  commitmentRoot := s.commitmentRoot.val
  nullifier := s.nullifier.val
  nonceNullifier := s.nonceNullifier.val
  newCommitment := s.newCommitment.val
  sellToken := BitVec.ofNat 160 s.sellToken.val
  buyToken := BitVec.ofNat 160 s.buyToken.val
  sellAmount := BitVec.ofNat 128 s.sellAmount.val
  buyAmount := BitVec.ofNat 128 s.buyAmount.val
  maxFee := BitVec.ofNat 16 s.maxFee.val
  expiry := BitVec.ofNat 64 s.expiry.val
  claimsRoot := s.claimsRoot.val
  totalLocked := BitVec.ofNat 128 s.totalLocked.val
  relayer := BitVec.ofNat 160 s.relayer.val
  orderHash := s.orderHash.val
  tier

theorem makerOrder_backed : (makerOrder.calldata 16).Backed tradeCircomlib tradePoseidon :=
  ⟨makerOrder.assign tradePoseidon, ⟨4, by decide, makerOrder_valid.authorize (by decide) (by decide)⟩, by decide +kernel⟩

theorem takerOrder_backed : (takerOrder.calldata 16).Backed tradeCircomlib tradePoseidon :=
  ⟨takerOrder.assign tradePoseidon, ⟨4, by decide, takerOrder_valid.authorize (by decide) (by decide)⟩, by decide +kernel⟩

def tradeDeployment : Deployment := .small tradePoseidon

def tradeWorld : World := World.fresh tradeDeployment 20 (Ledger.soleHolder 13 33 1000)

theorem tradeWorld_deployed : Deployed tradeDeployment tradeWorld :=
  World.deployed_fresh tradeDeployment (by decide) (by decide) (by decide) (by decide) fun _ _ _ => rfl

/-- The commitment to the note of an order. -/
def Circuit.AuthorizeSignals.deposited (s : Circuit.AuthorizeSignals) : ℕ := (tradePoseidon.hash s.note.preimage).val

/-- The owner connects the contracts and lists both tokens, and account `33` deposits the maker's note. -/
def tradeSetup : List Call :=
  [.external (.pool (.permissive 7) (.administer (.setAuthorizedSettlement 2))),
    .external (.pool (.permissive 7) (.administer (.setTokenWhitelist 13 true))),
    .external (.pool (.permissive 7) (.administer (.setTokenWhitelist 14 true))),
    .external (.administer (.permissive 7) (.setTokenWhitelist 13 true)),
    .external (.administer (.permissive 7) (.setTokenWhitelist 14 true)),
    .external (.administer (.permissive 7) (.setAuthorizeVerifier 16 11)),
    .external (.administer (.permissive 7) (.setCancelVerifier 11)),
    .external (.books (.approve 13 33 1 1000)),
    .external (.pool (.permissive 33) (.deposit .zero makerOrder.deposited 13 1000))]

/-- Account `34` deposits the taker's note. -/
def takerDeposit : List Call :=
  [.external (.books (.mint 14 34 320)),
    .external (.books (.approve 14 34 1 320)),
    .external (.pool (.permissive 34) (.deposit .zero takerOrder.deposited 14 320))]

def tradeParams : SettleAuthParams := ⟨makerOrder.calldata 16, takerOrder.calldata 16, 3, 3⟩

/-- A partial fill against a whole note. -/
theorem user_protection_trade :
    ∃ w', settleAuth tradeDeployment (.permissive 12) (tradeWorld.after tradeDeployment (tradeSetup ++ takerDeposit))
        tradeParams = .ok w' ∧
      TradeProtected tradeDeployment (tradeWorld.after tradeDeployment (tradeSetup ++ takerDeposit)) tradeParams w' := by
  have haccepted : (settleAuth tradeDeployment (.permissive 12)
      (tradeWorld.after tradeDeployment (tradeSetup ++ takerDeposit)) tradeParams).isOk = true := by decide +kernel
  obtain ⟨w', hw'⟩ := exists_of_isOk haccepted
  exact ⟨w', hw', (user_protection tradeWorld_deployed (tradeSetup ++ takerDeposit)).1 _ _ w' makerOrder_backed
    takerOrder_backed hw'⟩

end ScatterDex
