import SuiCash.Prover.Forgery
import SuiCash.Prover.Malleability
import SuiCash.Prover.Coordinates
import SuiCash.Prover.Refinement
import SuiCash.Prover.Interpolation
import SuiCash.Prover.Uniform
import SuiCash.Sui.Blob
import SuiCash.Server.Binding
import SuiCash.Facepay.Enrolment
import SuiCash.Facepay.Replacement
import SuiCash.Facepay.Link
import SuiCash.Facepay.Resumption
import SuiCash.Facepay.Ciphertext
import SuiCash.Server.ProofSlots
import SuiCash.Usb.Interrogation
import SuiCash.Regist.Decoder
import SuiCash.Regist.Ocr
import SuiCash.Reader.Corruption
import SuiCash.Reader.Crc
import SuiCash.Reader.Device
import SuiCash.Facepay.Settlement
import SuiCash.Usb.Verdict
import SuiCash.Felica.Attested
import SuiCash.Felica.Build
import SuiCash.Felica.Ring
