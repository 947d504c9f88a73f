import GrammarCatalog.Listing
import GrammarCatalog.NameTable
import GrammarCatalog.Proofs.Accounts
import GrammarCatalog.Proofs.BulkSets
import GrammarCatalog.Proofs.CanonicalText
import GrammarCatalog.Proofs.Dialects
import GrammarCatalog.Proofs.FirstMention
import GrammarCatalog.Proofs.Identity
import GrammarCatalog.Proofs.Interleaving
import GrammarCatalog.Proofs.Inverses
import GrammarCatalog.Proofs.Lookups
import GrammarCatalog.Proofs.Membership
import GrammarCatalog.Proofs.NameTables
import GrammarCatalog.Proofs.Permanence
import GrammarCatalog.Proofs.RuleTables
import GrammarCatalog.Proofs.Separation
import GrammarCatalog.Proofs.SettledSymbols
import GrammarCatalog.Proofs.WholeCalls
import GrammarCatalog.TokenSet.Shelf
import GrammarCatalog.TokenSet.Text
import GrammarCatalog.World
