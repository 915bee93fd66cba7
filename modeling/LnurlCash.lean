import LnurlCash.SettledNotes
import LnurlCash.ReplayedMutations
import LnurlCash.Discovery
import LnurlCash.Lib.Handlers
import LnurlCash.ReplayedWallets
import LnurlCash.Lib.Lockstep
import LnurlCash.UnseenSecrets
import LnurlCash.Ffi
import LnurlCash.StoredNotes
import LnurlCash.FewerRetries
import LnurlCash.SunsetDates
import LnurlCash.HexNodes
import LnurlCash.LegacySecrets
import LnurlCash.Writings
import LnurlCash.SighashBinding
import LnurlCash.Transfers
import LnurlCash.PastedUrls
import LnurlCash.EchoedNotes
import LnurlCash.OutputSecrets
import LnurlCash.CertificateScope
import LnurlCash.AmountPrefix
import LnurlCash.GrossUp
import LnurlCash.MutationVerdicts
import LnurlCash.ProbedNotes
import LnurlCash.ShareNotes
import LnurlCash.NoteLookups
import LnurlCash.NoteRewrites
import LnurlCash.RequestTexts
import LnurlCash.LinkSchemes
import LnurlCash.LegacyNotes
import LnurlCash.TreeKeys
import LnurlCash.AddressProofs
import LnurlCash.FeeTokens
import LnurlCash.PayRequests
import LnurlCash.AdmittedUrls
import LnurlCash.SpendDomains
import LnurlCash.ScriptSpends
import LnurlCash.AmountCodec
import LnurlCash.CanonicalSpends
import LnurlCash.KeyPathSpends
import LnurlCash.TimeClaims
import LnurlCash.ScriptTrees
import LnurlCash.Hashlocks
import LnurlCash.Lib.Bip341
import LnurlCash.StandardSighash
import LnurlCash.CheckedNotes
import LnurlCash.InvoiceTexts
