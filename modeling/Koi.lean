import Koi.Main
import Koi.Files.Tree.Lemmas
import Koi.Proofs.Engine
import Koi.Proofs.Warming
import Koi.Proofs.Residue
import Koi.Proofs.Opacity
import Koi.Proofs.Serial
import Koi.Proofs.Interleaving
import Koi.Proofs.Attributes.Json
import Koi.Proofs.Token.Seeds
import Koi.Proofs.Generation.Colors
import Koi.Proofs.Command.Runs
import Koi.Proofs.Layer
import Koi.Proofs.Color.Hex
import Koi.Proofs.Artwork
import Koi.Proofs.Color.Sampling
import Koi.Proofs.Config.RoundTrip
import Koi.Proofs.Config.Serving
import Koi.Proofs.Mask.Saving
import Koi.Proofs.Random.Period
